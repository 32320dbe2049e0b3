import MenuFirmware.Menu.Items

/-!
# The menu state machine (`menu.c`)

`menu_states` has a state for each nesting level and one for a callback that has the screen.
Pointers into it are indices, `NULL` is `none`; following `NULL`, leaving an array or calling a
`NULL` callback is a fault.

* `MenuState`, `MenuNav`  one state, all of them with the pointer `current_state`;
* `renderMenu`            draw the lines of the current menu;
* `scrollMenu`            a key in a menu;
* `menuPollButtons`       a key anywhere; a callback may call `scrollMenu` itself;
* `menuStep`              one event, a fault stays.
-/

set_option linter.unusedSectionVars false
set_option linter.unusedVariables false

namespace MenuFirmware

inductive Fault where
  /-- `prev_state` is `NULL` -/
  | prevState
  /-- outside `menu_states` -/
  | stateIndex
  /-- `current_item` is `NULL` -/
  | currentItem
  /-- outside a table -/
  | itemIndex
  /-- `submenu` is `NULL` -/
  | submenu
  /-- a callback is `NULL` -/
  | callback
  deriving DecidableEq

def menuLevelCount : Nat := 5
def menuLevel1 : Nat := 0
def menuCallback : Nat := 4
def oledLines : Nat := 8

/-- `&items[k]` -/
abbrev ItemPtr := Table × Nat

structure MenuState where
  prevState : Option Nat
  currentItem : Option ItemPtr
  currentItemIdx : Nat
  cursorLine : Nat
  level : Nat
  deriving DecidableEq

inductive Role where
  | up
  | down
  | confirm
  | cancel
  deriving DecidableEq

structure MenuNav where
  /-- `menu_states`, of which there are `menuLevelCount` -/
  states : Nat → MenuState
  currentState : Nat
  /-- ghost: the render callbacks called so far, the last one first -/
  rendered : List (Callback × Nat)
  /-- `PushEvt_EvtPar`: the events pushed by render callbacks, the last one first -/
  pushed : List Role

/-! ## pointers -/

def MenuNav.state (m : MenuNav) (i : Nat) : Except Fault MenuState :=
  if i < menuLevelCount then .ok (m.states i) else .error .stateIndex

def MenuNav.cur (m : MenuNav) : Except Fault MenuState := m.state m.currentState

/-- `*prev_state` of the current state -/
def MenuNav.prev (m : MenuNav) : Except Fault MenuState := do
  let c ← m.cur
  match c.prevState with
  | some i => m.state i
  | none => .error .prevState

def itemAt (t : Table) (k : Nat) : Except Fault MenuItem :=
  match t.items[k]? with
  | some it => .ok it
  | none => .error .itemIndex

def MenuState.item (s : MenuState) : Except Fault MenuItem :=
  match s.currentItem with
  | some (t, k) => itemAt t k
  | none => .error .currentItem

/-- `previous_item = menu_states[current_state->prev_state->level].current_item` -/
def MenuNav.previousItem (m : MenuNav) : Except Fault MenuItem := do
  let p ← m.prev
  let s ← m.state p.level
  s.item

def MenuNav.maxOptions (m : MenuNav) : Except Fault Nat := do
  let c ← m.cur
  if c.level ≠ menuLevel1 then
    let it ← m.previousItem
    .ok it.submenuLength
  else .ok Table.home.items.length

def MenuNav.items (m : MenuNav) : Except Fault Table := do
  let c ← m.cur
  if c.level ≠ menuLevel1 then
    let it ← m.previousItem
    match it.submenu with
    | some t => .ok t
    | none => .error .submenu
  else .ok .home

/-- `current_state = &menu_states[current_state->prev_state->level]` -/
def MenuNav.pop (m : MenuNav) : Except Fault MenuNav := do
  let p ← m.prev
  .ok { m with currentState := p.level }

def MenuNav.set (m : MenuNav) (i : Nat) (s : MenuState) : MenuNav :=
  { m with states := Function.update m.states i s }

/-! ## drawing -/

/-- `n` lines from the item `k` on -/
def drawLines (t : Table) (k : Nat) : Nat → Except Fault Unit
  | 0 => .ok ()
  | n + 1 => do
    let _ ← itemAt t k
    drawLines t (k + 1) n

def renderMenu (m : MenuNav) : Except Fault Unit := do
  let c ← m.cur
  let t ← m.items
  let maxOptions ← m.maxOptions
  drawLines t ((c.currentItemIdx + 256 - c.cursorLine) % 256) (min maxOptions oledLines)

/-! ## keys in a menu -/

def moveUp (c : MenuState) (maxOptions : Nat) : MenuState :=
  if c.currentItemIdx ≠ 0 then
    if c.cursorLine = 0 then { c with currentItemIdx := c.currentItemIdx - 1 }
    else { c with cursorLine := c.cursorLine - 1, currentItemIdx := c.currentItemIdx - 1 }
  else
    let idx := (maxOptions + 255) % 256
    { c with
      currentItemIdx := idx
      cursorLine := if oledLines - 1 > idx then (maxOptions + 255) % 256 else oledLines - 1 }

def moveDown (c : MenuState) (maxOptions : Nat) : MenuState :=
  if c.currentItemIdx + 1 < maxOptions then
    if c.cursorLine = oledLines - 1 then { c with currentItemIdx := (c.currentItemIdx + 1) % 256 }
    else
      { c with
        cursorLine := (c.cursorLine + 1) % 256
        currentItemIdx := (c.currentItemIdx + 1) % 256 }
  else { c with cursorLine := 0, currentItemIdx := 0 }

/-- `setState`; the level stays -/
def MenuState.setState (s : MenuState) (prev : Option Nat) (item : Option ItemPtr)
    (idx line : Nat) : MenuState :=
  { s with prevState := prev, currentItem := item, currentItemIdx := idx, cursorLine := line }

/-- open the state `target` above the current one, whose item becomes `ptr` -/
def MenuNav.enter (m : MenuNav) (target : Nat) (ptr : ItemPtr) (item : Option ItemPtr) (idx : Nat) :
    Except Fault MenuNav := do
  let c ← m.cur
  let m := m.set m.currentState { c with currentItem := some ptr }
  let s ← m.state target
  .ok { m.set target (s.setState (some m.currentState) item idx 0) with currentState := target }

def confirm (m : MenuNav) : Except Fault MenuNav := do
  let c ← m.cur
  let t ← m.items
  let it ← itemAt t c.currentItemIdx
  let ptr : ItemPtr := (t, c.currentItemIdx)
  if it.renderCallback.isSome then m.enter menuCallback ptr (some ptr) c.currentItemIdx
  else if it.submenu.isSome then m.enter (c.level + 1) ptr none 0
  else .ok m

/-- what a render callback does to the menu: the exits push the cancel key -/
def renderCallback (m : MenuNav) (f : Callback) (which : Nat) : MenuNav :=
  match f with
  | .exitAction | .exit2MainMenu =>
    { m with rendered := (f, which) :: m.rendered, pushed := .cancel :: m.pushed }
  | _ => { m with rendered := (f, which) :: m.rendered }

/-- the end of `scrollMenu`: the menu or the callback gets the screen -/
def showCurrent (m : MenuNav) : Except Fault MenuNav := do
  let c ← m.cur
  if c.level ≠ menuCallback then
    renderMenu m
    .ok m
  else
    let p ← m.prev
    let it ← p.item
    match it.renderCallback with
    | some f => .ok (renderCallback m f c.currentItemIdx)
    | none => .error .callback

def scrollMenu (m : MenuNav) (role : Role) : Except Fault MenuNav := do
  let c ← m.cur
  let m ← match role with
    | .up => do
      let n ← m.maxOptions
      .ok (m.set m.currentState (moveUp c n))
    | .down => do
      let n ← m.maxOptions
      .ok (m.set m.currentState (moveDown c n))
    | .confirm => confirm m
    | .cancel => if c.level ≠ menuLevel1 then m.pop else .ok m
  showCurrent m

/-! ## keys in a callback -/

/-- `Set_Exit` -/
def setExit (m : MenuNav) : Except Fault MenuNav := do
  let c ← m.cur
  .ok (m.set m.currentState { c with level := 4 })

/-- the button callbacks: has the callback been left, and the menu after it -/
def btnHandleCallback (m : MenuNav) (f : Callback) (role : Role) : Except Fault (Bool × MenuNav) :=
  match f, role with
  | .exitAction, role | .exit2MainMenu, role => do
    let m ← setExit m
    match role with
    | .cancel => do
      let m ← scrollMenu m .cancel
      .ok (true, m)
    | _ => .ok (false, m)
  | .networkIp, .up | .networkIp, .down | .networkMac, .up | .networkMac, .down | .gps, .up
  | .gps, .down | .statusSynchPrint, .up | .statusSynchPrint, .down => .ok (false, m)
  | _, _ => .ok (true, m)

/-- `menuPollButtons`, for the four keys of the menu; any other key does nothing -/
def menuPollButtons (m : MenuNav) (role : Role) : Except Fault MenuNav := do
  let c ← m.cur
  if c.level ≠ menuCallback then scrollMenu m role
  else
    let p ← m.prev
    let it ← p.item
    match it.btnHandleCallback with
    | none => .error .callback
    | some f => do
      let (exited, m) ← btnHandleCallback m f role
      if exited then
        let m ← m.pop
        renderMenu m
        .ok m
      else .ok m

/-! ## events -/

def MenuNav.menuResetNoRenderMenu (m : MenuNav) : Except Fault MenuNav := do
  let s ← m.state menuLevel1
  .ok { m.set menuLevel1 (s.setState none none 0 0) with currentState := menuLevel1 }

def MenuNav.menuReset (m : MenuNav) : Except Fault MenuNav := do
  let m ← m.menuResetNoRenderMenu
  renderMenu m
  .ok m

inductive MenuEvent where
  | key (role : Role)
  | otherKey
  | reset
  | resetNoRender
  deriving DecidableEq

def menuStep (r : Except Fault MenuNav) (e : MenuEvent) : Except Fault MenuNav :=
  match r, e with
  | .error f, _ => .error f
  | .ok m, .key role => menuPollButtons m role
  | .ok m, .otherKey => .ok m
  | .ok m, .reset => m.menuReset
  | .ok m, .resetNoRender => m.menuResetNoRenderMenu

/-- `menu_states` as initialised -/
def menuNavInit : MenuNav where
  states i := ⟨none, none, 0, 0, i⟩
  currentState := menuLevel1
  rendered := []
  pushed := []

end MenuFirmware
