import MenuFirmware.Config.Arrays

/-!
# The menu tables (`menu_items.c`)

Each table is a list of items; an item has a pair of callbacks, a submenu, or neither.

* `Table.items`          the items of each table;
* `Table.depth`          how many menus lie above a table; `submenu_depth`, `depth_le`;
* `item_callbacks`       an item has both callbacks or none;
* `home_callback`        the home menu has one item with callbacks, the last.
-/

set_option linter.unusedSectionVars false
set_option linter.unusedVariables false

namespace MenuFirmware

/-- the callback pairs `…CallbackRender`, `…Callback`; all settings menus work alike -/
inductive Callback where
  | select (g : Group)
  | networkIp
  | networkMac
  | gps
  | systemUniversal
  | statusPrint
  | statusSynchPrint
  | exitAction
  | exit2MainMenu
  deriving DecidableEq

inductive Table where
  | home
  | system
  | systemFeature
  | config
  | configFormat
  | configVideo
  | configVideoInput
  | configVideoOutput
  | configAudio
  | configNetwork
  | configNetworkIp
  | configNetworkMac
  | configSrc
  | configSrcMode
  | configSrcSyncType
  | configSrcClockType
  | configSrcSyncFrame
  | configDisplay
  | configDisplayMode
  | configDisplayBrightness
  | status
  | statusSynch
  deriving DecidableEq

structure MenuItem where
  renderCallback : Option Callback
  btnHandleCallback : Option Callback
  submenu : Option Table

def MenuItem.call (c : Callback) : MenuItem := ⟨some c, some c, none⟩
def MenuItem.sub (t : Table) : MenuItem := ⟨none, none, some t⟩
def MenuItem.plain : MenuItem := ⟨none, none, none⟩

/-- a settings menu: an item for each element of the group, and the exit -/
def selectItems (g : Group) : List MenuItem :=
  List.replicate g.num (.call (.select g)) ++ [.call .exitAction]

def Table.items : Table → List MenuItem
  | .home => [.sub .system, .sub .config, .sub .status, .call .exit2MainMenu]
  | .system =>
    [.call .systemUniversal, .call .systemUniversal, .call .systemUniversal, .call .systemUniversal,
      .sub .systemFeature, .call .exitAction]
  | .systemFeature => [.plain, .plain, .plain, .plain, .plain, .call .exitAction]
  | .config =>
    [.sub .configFormat, .sub .configVideo, .sub .configAudio, .sub .configNetwork, .call .gps,
      .sub .configSrc, .sub .configDisplay, .call .exitAction]
  | .configFormat => selectItems .configFormat
  | .configVideo => [.sub .configVideoInput, .sub .configVideoOutput, .call .exitAction]
  | .configVideoInput => selectItems .configVideoInput
  | .configVideoOutput => selectItems .configVideoOutput
  | .configAudio => [.plain, .plain, .call .exitAction]
  | .configNetwork => [.sub .configNetworkIp, .sub .configNetworkMac, .call .exitAction]
  | .configNetworkIp => List.replicate 4 (.call .networkIp) ++ [.call .exitAction]
  | .configNetworkMac => List.replicate 6 (.call .networkMac) ++ [.call .exitAction]
  | .configSrc =>
    [.sub .configSrcMode, .sub .configSrcSyncType, .sub .configSrcClockType,
      .sub .configSrcSyncFrame, .call .exitAction]
  | .configSrcMode => selectItems .configSrcMode
  | .configSrcSyncType => selectItems .configSrcSyncType
  | .configSrcClockType => selectItems .configSrcClockType
  | .configSrcSyncFrame => selectItems .configSrcSyncFrame
  | .configDisplay =>
    [.sub .configDisplayMode, .sub .configDisplayBrightness, .call .exitAction]
  | .configDisplayMode => selectItems .configDisplayMode
  | .configDisplayBrightness => selectItems .configDisplayBrightness
  | .status =>
    [.call .statusPrint, .call .statusPrint, .call .statusPrint, .call .statusPrint,
      .sub .statusSynch, .call .exitAction]
  | .statusSynch => [.call .statusSynchPrint, .call .statusSynchPrint, .call .exitAction]

def MenuItem.submenuLength (it : MenuItem) : Nat :=
  match it.submenu with
  | some t => t.items.length
  | none => 0

/-- the number of menus above a table -/
def Table.depth : Table → Nat
  | .home => 0
  | .system | .config | .status => 1
  | .systemFeature | .configFormat | .configVideo | .configAudio | .configNetwork | .configSrc
  | .configDisplay | .statusSynch => 2
  | .configVideoInput | .configVideoOutput | .configNetworkIp | .configNetworkMac
  | .configSrcMode | .configSrcSyncType | .configSrcClockType | .configSrcSyncFrame
  | .configDisplayMode | .configDisplayBrightness => 3

theorem depth_le (t : Table) : t.depth ≤ 3 := by cases t <;> decide

theorem submenu_depth {t t' : Table} {it : MenuItem} (hit : it ∈ t.items)
    (h : it.submenu = some t') : t'.depth = t.depth + 1 := by
  have hall : ∀ it ∈ t.items, ∀ t' ∈ it.submenu, t'.depth = t.depth + 1 := by
    cases t <;> decide
  exact hall it hit t' h

theorem items_length (t : Table) : 0 < t.items.length ∧ t.items.length ≤ 18 := by
  cases t <;> decide

theorem item_callbacks {t : Table} {it : MenuItem} (hit : it ∈ t.items) :
    it.btnHandleCallback = it.renderCallback := by
  have hall : ∀ it ∈ t.items, it.btnHandleCallback = it.renderCallback := by
    cases t <;> decide
  exact hall it hit

/-- in the home menu only the last item has callbacks -/
theorem home_callback {k : Nat} {it : MenuItem} (hit : Table.home.items[k]? = some it)
    (h : it.renderCallback ≠ none) : k = 3 ∧ it = .call .exit2MainMenu := by
  match k with
  | 0 => exact absurd (by rw [← Option.some.inj hit]; rfl) h
  | 1 => exact absurd (by rw [← Option.some.inj hit]; rfl) h
  | 2 => exact absurd (by rw [← Option.some.inj hit]; rfl) h
  | 3 => exact ⟨rfl, (Option.some.inj hit).symm⟩
  | k + 4 => exact absurd hit nofun

end MenuFirmware
