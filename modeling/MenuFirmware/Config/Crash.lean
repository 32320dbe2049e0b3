import MenuFirmware.Config.Store

/-!
# Power failure during a save

A save is one sector erase, 66 record bytes and the marker: 68 flash operations.  Power may fail
after any number of them; the flash then holds the replay of the operations before the failure.

* `powerFail d n`          the flash that survives when power fails after `n` operations;
* `powerFail_cut`          in between, the marker is blank and the MAC record is cut off;
* `boot_powerFail_cut`     so the boot runs on the defaults with the MAC address of the cut record;
* `CrashSafe`              the boot finds the old, the new or the default configuration;
* `crashSafe_iff`          for which configurations and failure points that is so.  The MAC address
                           is the reason why it is not always: `Read_Flash_IP_MAC` reads it without
                           looking at the marker.
-/

set_option linter.unusedSectionVars false
set_option linter.unusedVariables false

namespace MenuFirmware
open Nor

/-- the flash that survives when power fails after `n` operations of `Write2Flash` -/
def powerFail (d : Dev) (n : Nat) : Flash :=
  { d.flash with
    mem := replay d.flash.mem (((write2Flash d).flash.done.drop d.flash.done.length).take n)
    locked := true }

theorem powerFail_mem (d : Dev) (n : Nat) (hok : d.flash.AllOk) :
    (powerFail d n).mem = replay d.flash.mem ((saveOps d.arr).take n) := by
  unfold powerFail
  rw [write2Flash_flash, saveFlash_allOk d.flash d.arr hok, Flash.after_done, List.drop_left]

/-! ## where the MAC record and the marker stand in a save -/

theorem cells_length (c : Config) : c.cells.length = 66 := by
  have h := congrArg List.length (cells_fst c)
  rw [List.length_map] at h
  rw [h]
  decide

/-- the records before the MAC record -/
def frontCells (c : Config) : List (Nat × UInt8) :=
  (Arr.all.take 5).flatMap fun a => record a.addr (c.buf a)

theorem frontCells_length (c : Config) : (frontCells c).length = 31 := by
  simp [frontCells, Arr.all, record_length, Config.buf_length, Arr.num, Group.num]

theorem saveCells_split (c : Config) : ∃ back, saveCells c
    = frontCells c ++ (record Arr.mac.addr (c.buf .mac) ++ back) := by
  refine ⟨(Arr.all.drop 6).flatMap (fun a => record a.addr (c.buf a)) ++ [(restoreNumAddr, 0x01)], ?_⟩
  have hall : Arr.all = Arr.all.take 5 ++ (.mac :: Arr.all.drop 6) := by decide
  unfold saveCells Config.cells frontCells
  conv_lhs => rw [hall]
  simp only [List.flatMap_append, List.flatMap_cons, List.append_assoc]

theorem saveCells_mac (c : Config) (i : Fin Arr.mac.num) :
    (saveCells c)[31 + i.1]? = some (Arr.mac.addr + i, c .mac i) := by
  obtain ⟨back, h⟩ := saveCells_split c
  have hrec : i.1 < (record Arr.mac.addr (c.buf .mac)).length := by
    rw [record_length, Config.buf_length]
    exact i.2
  rw [h, List.getElem?_append_right (by rw [frontCells_length]; omega), frontCells_length,
    Nat.add_sub_cancel_left, List.getElem?_append_left hrec, Config.buf, record_ofFn,
    List.getElem?_ofFn, dif_pos i.2]

theorem saveCells_marker (c : Config) :
    (saveCells c)[66]? = some (restoreNumAddr, 0x01) := by
  unfold saveCells
  rw [← cells_length c, List.getElem?_concat_length]

/-! ## the flash in between -/

theorem take_saveOps (c : Config) (n : Nat) :
    (saveOps c).take (n + 1) = .erase 11 :: programOps ((saveCells c).take n) := by
  unfold saveOps
  rw [List.take_succ_cons, programOps_take]

theorem replay_take_saveOps (m : Mem UInt8) (c : Config) (n : Nat) :
    replay m ((saveOps c).take (n + 1)) = program (erased m) ((saveCells c).take n) := by
  rw [take_saveOps, replay_cons, replay_programOps]
  rfl

/-- the MAC record of a save of `c` that was cut off after `n` operations -/
def cutMac (c : Config) (n : Nat) : Fin Arr.mac.num → UInt8 :=
  fun i => if i + 32 < n then c .mac i else 0xFF

theorem powerFail_cut (m : Mem UInt8) (c : Config) (n : Nat) (h0 : 0 < n) (h1 : n < 68) :
    replay m ((saveOps c).take n) restoreNumAddr = 0xFF ∧
      read (replay m ((saveOps c).take n)) Arr.mac.addr Arr.mac.num = cutMac c n := by
  obtain ⟨k, rfl⟩ := Nat.exists_eq_succ_of_ne_zero (Nat.pos_iff_ne_zero.1 h0)
  rw [replay_take_saveOps]
  constructor
  · rw [program_take _ _ k 66 _ _ (saveCells_marker c) (saveCells_nodup c), if_neg (by omega),
      erased_blank m _ (by simp)]
  · funext i
    show program (erased m) ((saveCells c).take k) (Arr.mac.addr + i) = cutMac c (k + 1) i
    rw [program_take _ _ k (31 + i) _ _ (saveCells_mac c i) (saveCells_nodup c),
      erased_blank m _ (mem_layout .mac i)]
    have hb : Cell.prog (0xFF : UInt8) (c .mac i) = c .mac i := Cell.prog_blank _
    rw [hb]
    unfold cutMac
    by_cases h : 31 + i.1 < k
    · rw [if_pos h, if_pos (by omega)]
    · rw [if_neg h, if_neg (by omega)]

theorem saveOps_length (c : Config) : (saveOps c).length = 68 := by
  unfold saveOps saveCells
  rw [List.length_cons, programOps_length, List.length_append, cells_length]
  rfl

/-! ## the boot after the failure -/

/-- the next boot: reset, then the readers on the surviving flash -/
def bootAfterFail (d : Dev) (n : Nat) : Dev := boot (powerOn { d with flash := powerFail d n })

section
variable (d : Dev) (n : Nat) (hok : d.flash.AllOk)
include hok

theorem boot_powerFail_cut (h0 : 0 < n) (h1 : n < 68) :
    (bootAfterFail d n).arr = Function.update defaultArr .mac (cutMac d.arr n) := by
  have hcut := powerFail_cut d.flash.mem d.arr n h0 h1
  rw [← powerFail_mem d n hok] at hcut
  have hr : readRestore (powerFail d n) = 0xFF := hcut.1
  have hb := boot_other (powerOn { d with flash := powerFail d n })
    (fun h => absurd (hr.symm.trans h) (by decide)) (fun h => absurd (hr.symm.trans h) (by decide))
  unfold bootAfterFail
  rw [hb, ← hcut.2]
  rfl

theorem boot_powerFail_zero (old : Config) (h : Holds d.flash.mem old 0x01) :
    (bootAfterFail d 0).arr = old := by
  have hm : (powerFail d 0).mem = d.flash.mem := by
    rw [powerFail_mem d 0 hok, List.take_zero, replay_nil]
  rw [← hm] at h
  exact (boot_one (powerOn { d with flash := powerFail d 0 }) old h).1

theorem boot_powerFail_all (h : 68 ≤ n) : (bootAfterFail d n).arr = d.arr := by
  have hm : (powerFail d n).mem = replay d.flash.mem (saveOps d.arr) := by
    rw [powerFail_mem d n hok, List.take_of_length_le (by rwa [saveOps_length])]
  have hh : Holds (powerFail d n).mem d.arr 0x01 := by
    rw [hm]
    exact Holds_saveOps d.flash.mem d.arr
  exact (boot_one (powerOn { d with flash := powerFail d n }) d.arr hh).1

end

/-! ## crash safety -/

/-- the boot found the old, the new or the default configuration, entirely -/
def CrashSafe (old new found : Config) : Prop := found = old ∨ found = new ∨ found = defaultArr

/-- the defaults in every array but the MAC address -/
def MatchesDefaults (c : Config) : Prop := ∀ a, a ≠ .mac → c a = defaultArr a

/-- the failure points and configurations for which a save of `new` over `old` is crash safe: the
failure comes before the erase or after the marker; or the whole MAC address has been programmed
and is the default one; or the boot on the defaults with the MAC bytes programmed so far happens to
be the new or the old configuration -/
def CrashPoint (old new : Config) (n : Nat) : Prop :=
  n = 0 ∨ 68 ≤ n ∨
  (38 ≤ n ∧ new .mac = defaultArr .mac) ∨
  (MatchesDefaults new ∧ ∀ i : Fin Arr.mac.num, n ≤ i + 32 → new .mac i = 0xFF) ∨
  (MatchesDefaults old ∧
    ∀ i : Fin Arr.mac.num, old .mac i = if i + 32 < n then new .mac i else 0xFF)

theorem update_mac_eq (c : Config) (f : Fin Arr.mac.num → UInt8) :
    Function.update defaultArr .mac f = c ↔ MatchesDefaults c ∧ c .mac = f := by
  rw [Function.update_eq_iff]
  unfold MatchesDefaults
  constructor
  · rintro ⟨h, ho⟩
    exact ⟨fun a ha => (ho a ha).symm, h.symm⟩
  · rintro ⟨ho, h⟩
    exact ⟨h.symm, fun a ha => (ho a ha).symm⟩

theorem cutMac_eq_default (c : Config) (n : Nat) :
    defaultArr .mac = cutMac c n ↔ 38 ≤ n ∧ c .mac = defaultArr .mac := by
  constructor
  · intro h
    have h5 : 38 ≤ n := by
      by_contra hlt
      have h5 := congrFun h ⟨5, by decide⟩
      unfold cutMac at h5
      rw [if_neg (by show ¬ (5 + 32 < n); omega)] at h5
      exact absurd h5 (by decide)
    refine ⟨h5, ?_⟩
    rw [h]
    funext i
    have hi : i.1 < 6 := i.2
    exact (if_pos (by omega)).symm
  · rintro ⟨h5, h⟩
    rw [← h]
    funext i
    have hi : i.1 < 6 := i.2
    exact (if_pos (by omega)).symm

theorem cutMac_eq_new (c : Config) (n : Nat) :
    c .mac = cutMac c n ↔ ∀ i : Fin Arr.mac.num, n ≤ i + 32 → c .mac i = 0xFF := by
  constructor
  · intro h i hi
    rw [h]
    exact if_neg (by omega)
  · intro h
    funext i
    unfold cutMac
    by_cases hi : i.1 + 32 < n
    · rw [if_pos hi]
    · rw [if_neg hi, h i (by omega)]

/-- **Crash safety**, exactly: what the boot finds after a failure at `n` is the old, the new or
the default configuration iff `n` is a crash point. -/
theorem crashSafe_iff (d : Dev) (old : Config) (n : Nat) (hok : d.flash.AllOk)
    (h : Holds d.flash.mem old 0x01) :
    CrashSafe old d.arr (bootAfterFail d n).arr ↔ CrashPoint old d.arr n := by
  by_cases h0 : n = 0
  · subst h0
    exact iff_of_true (Or.inl (boot_powerFail_zero d hok old h)) (Or.inl rfl)
  · by_cases h1 : 68 ≤ n
    · exact iff_of_true (Or.inr (Or.inl (boot_powerFail_all d n hok h1))) (Or.inr (Or.inl h1))
    · have hmid := boot_powerFail_cut d n hok (Nat.pos_of_ne_zero h0) (by omega)
      have hdef : MatchesDefaults defaultArr := fun a _ => rfl
      have hfun : ∀ c : Config, c .mac = cutMac d.arr n ↔
          ∀ i : Fin Arr.mac.num, c .mac i = if i + 32 < n then d.arr .mac i else 0xFF :=
        fun c => funext_iff
      unfold CrashSafe CrashPoint
      rw [hmid, update_mac_eq, update_mac_eq, update_mac_eq, cutMac_eq_new, cutMac_eq_default, hfun]
      constructor
      · rintro (ho | hn | ⟨_, hd⟩)
        · exact Or.inr (Or.inr (Or.inr (Or.inr ho)))
        · exact Or.inr (Or.inr (Or.inr (Or.inl hn)))
        · exact Or.inr (Or.inr (Or.inl hd))
      · rintro (hz | hl | hd | hn | ho)
        · exact absurd hz h0
        · exact absurd hl h1
        · exact Or.inr (Or.inr ⟨hdef, hd⟩)
        · exact Or.inr (Or.inl hn)
        · exact Or.inl ho

/-- another IP address is being saved, and power is lost behind the MAC address -/
theorem crashSafe_iff_behind_mac :
    CrashSafe defaultArr storedIp
      (bootAfterFail { savedDev defaultArr with arr := storedIp } 40).arr :=
  (crashSafe_iff { savedDev defaultArr with arr := storedIp } defaultArr 40 blankDev_allOk
    (savedDev_holds defaultArr)).2 (Or.inr (Or.inr (Or.inl ⟨by decide, storedIp_mac⟩)))

/-- the defaults saved over the defaults, and power lost right after the erase -/
theorem crash_after_erase :
    Holds (savedDev defaultArr).flash.mem defaultArr 0x01 ∧
      ¬ CrashSafe defaultArr defaultArr (bootAfterFail (savedDev defaultArr) 1).arr := by
  refine ⟨savedDev_holds defaultArr, ?_⟩
  rw [boot_powerFail_cut (savedDev defaultArr) 1 blankDev_allOk (by decide) (by decide)]
  have hne : Function.update defaultArr .mac (cutMac defaultArr 1) ≠ defaultArr := by
    intro h
    have h0 := congrFun (congrFun h .mac) ⟨0, by decide⟩
    rw [Function.update_self] at h0
    exact absurd h0 (by decide)
  rintro (h | h | h)
  · exact hne h
  · exact hne h
  · exact hne h

end MenuFirmware
