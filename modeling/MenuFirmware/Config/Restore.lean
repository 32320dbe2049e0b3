import MenuFirmware.Config.Store

/-!
# Factory restore

`Restore_Flash` clears the `RESTORE` marker; the next boot finds it at `0x00` and rebuilds the
sector.  The network identity of that boot is read before the sector is rebuilt.

* `Holds_restoreFlash`  clearing the marker leaves every record alone;
* `boot_restoreFlash`   the device after the boot that follows;
* `FactoryRestored c d` what a factory restore of the stored configuration `c` has to leave;
* `factoryRestore_iff`  it does so exactly when the stored MAC address is the default one: the
                        restore branch writes the MAC record from `Default_Mac_Arr`.
-/

set_option linter.unusedSectionVars false
set_option linter.unusedVariables false

namespace MenuFirmware
open Nor

/-! ## clearing the marker -/

theorem restoreNumAddr_not_mem_layout : restoreNumAddr ∉ layout := by
  intro h
  have hd := List.nodup_append.1 layout_nodup
  exact hd.2.2 _ h _ (List.mem_singleton.2 rfl) rfl

theorem restoreFlash_mem (d : Dev) (hok : d.flash.AllOk) :
    (restoreFlash d).flash.mem = programCell d.flash.mem (restoreNumAddr, 0x00) := by
  unfold restoreFlash
  rw [romflashPagesWrite_allOk _ _ _ hok]
  rfl

theorem restoreFlash_allOk (d : Dev) (hok : d.flash.AllOk) : (restoreFlash d).flash.AllOk := by
  unfold restoreFlash
  rw [romflashPagesWrite_allOk _ _ _ hok]
  exact hok

theorem Holds_restoreFlash (d : Dev) (c : Config) (b : UInt8) (hok : d.flash.AllOk)
    (h : Holds d.flash.mem c b) : Holds (restoreFlash d).flash.mem c 0x00 := by
  rw [restoreFlash_mem d hok]
  constructor
  · intro a
    rw [← h.records a]
    funext i
    apply programCell_of_ne
    intro e
    have hl : a.addr + i ∈ layout := by
      refine List.mem_flatMap.2 ⟨a, a.mem_all, ?_⟩
      rw [List.mem_range'_1]
      omega
    rw [e] at hl
    exact restoreNumAddr_not_mem_layout hl
  · rw [programCell_self]
    exact UInt8.and_zero

/-! ## the boot that follows -/

/-- what a factory restore of the stored configuration `c` has to leave behind -/
structure FactoryRestored (c : Config) (d : Dev) : Prop where
  systemFeature : d.arr Group.systemFeature = c Group.systemFeature
  mac : d.arr .mac = c .mac
  ram : ∀ a : Arr, a ≠ Group.systemFeature → a ≠ .mac → d.arr a = defaultArr a
  flash : ∀ a : Arr, a ≠ Group.systemFeature → a ≠ .mac →
    read d.flash.mem a.addr a.num = defaultArr a
  restore : d.restore = 0x01 ∧ d.flash.mem restoreNumAddr = 0x01
  netIp : d.netPar.ip = d.arr .ip
  netMac : d.netPar.mac = d.arr .mac

theorem restoreRecords_of_ne (c : Config) (a : Arr) (h : a ≠ Group.systemFeature) :
    restoreRecords c a = defaultArr a := by
  cases a with
  | grp g => cases g <;> first | exact absurd rfl h | rfl
  | ip => rfl
  | mac => rfl
  | utcOffset => rfl

section
variable (d : Dev) (c : Config) (hok : d.flash.AllOk) (h : Holds d.flash.mem c 0x01)
include hok h

theorem boot_restoreFlash :
    (boot (powerOn (restoreFlash d))).arr = restoreRecords c ∧
      (boot (powerOn (restoreFlash d))).restore = 0x01 ∧
      Holds (boot (powerOn (restoreFlash d))).flash.mem (restoreRecords c) 0x01 ∧
      (boot (powerOn (restoreFlash d))).netPar.ip = defaultArr .ip ∧
      (boot (powerOn (restoreFlash d))).netPar.mac = c .mac :=
  boot_zero (powerOn (restoreFlash d)) c (restoreFlash_allOk d hok)
    (Holds_restoreFlash d c 0x01 hok h)

/-- **Factory restore.**  Everything comes out as intended exactly when the stored MAC address is
the compiled-in one. -/
theorem factoryRestore_iff :
    FactoryRestored c (boot (powerOn (restoreFlash d))) ↔ c .mac = defaultArr .mac := by
  obtain ⟨harr, hrest, hfl, hip, hmac⟩ := boot_restoreFlash d c hok h
  have hdef : restoreRecords c .mac = defaultArr .mac := rfl
  constructor
  · intro hf
    have hm := hf.mac
    rw [harr, hdef] at hm
    exact hm.symm
  · intro hm
    refine ⟨?_, ?_, ?_, ?_, ⟨hrest, hfl.marker⟩, ?_, ?_⟩
    · rw [harr]
      rfl
    · rw [harr, hdef, hm]
    · intro a ha _
      rw [harr, restoreRecords_of_ne c a ha]
    · intro a ha _
      rw [hfl.records a, restoreRecords_of_ne c a ha]
    · rw [hip, harr]
      rfl
    · rw [hmac, harr, hdef, hm]

end

/-! ## a stored MAC address that is lost -/

/-- the defaults, but for a MAC address that ends in `01` -/
def storedMac : Config :=
  Function.update defaultArr .mac (Function.update (defaultArr .mac) (Fin.last 5) 0x01)

/-- the stored IP address goes back to the default, the MAC address stays -/
theorem factoryRestore_iff_ip :
    FactoryRestored storedIp (boot (powerOn (restoreFlash (savedDev storedIp)))) :=
  (factoryRestore_iff (savedDev storedIp) storedIp blankDev_allOk (savedDev_holds storedIp)).2
    storedIp_mac

theorem factoryRestore_loses_mac :
    Holds (savedDev storedMac).flash.mem storedMac 0x01 ∧
      ¬ FactoryRestored storedMac (boot (powerOn (restoreFlash (savedDev storedMac)))) := by
  refine ⟨savedDev_holds storedMac, ?_⟩
  intro hf
  obtain ⟨harr, -⟩ := boot_restoreFlash (savedDev storedMac) storedMac blankDev_allOk
    (savedDev_holds storedMac)
  have hm := hf.mac
  rw [harr] at hm
  have h5 : restoreRecords storedMac .mac (Fin.last 5) = storedMac .mac (Fin.last 5) := by rw [hm]
  exact absurd h5 (by decide)

end MenuFirmware
