import MenuFirmware.Input.Scan
import MenuFirmware.Menu.Exit

/-!
# Waking the display (`main_meau.c`, `power.c`, `main.c`)

The main screen is shown until a key sets the countdown `cnt_down`.  The poll that finds it set
opens the menu; only from the next poll on do key events reach it.  When the countdown has run out
the main screen comes back.

* `pollintDisplayMainMenu`   the poll, every 100 ms;
* `modeKey`, `dispatch`      an event of the queue on its way to the menu;
* `wakeStep`                 a poll, a key scan, a call of `Set_cnt_down`, or a dispatch;
* `WakeInv`                  `clear_Oled_Flag` says which view was drawn last, keys act in the menu
                             only, and what the main screen's presses have pushed is gone by then;
* `wake_law`                 over every run: keys act on the menu view only, no press that set the
                             countdown on the main screen ever acts, the menu opens at its top.
-/

namespace MenuFirmware
open Runs

/-! ## the state -/

/-- the view drawn last -/
inductive View where
  | blank
  | main
  | menu
  deriving DecidableEq

/-- ghost: where an event comes from -/
inductive Origin where
  /-- the press of a key, by its number -/
  | press (id : Nat)
  /-- the exit item of a menu -/
  | exit
  deriving DecidableEq

/-- ghost: an event that has reached `menuPollButtons`, with the view it found -/
structure Acted where
  view : View
  origin : Option Origin

structure WakeState where
  scan : ScanState
  cntDown : UInt16
  clearOledFlag : Bool
  enableKeyFeature : Bool
  events : EventManager Origin
  workMode : UInt8
  nav : Except Fault MenuNav
  /-- ghost -/
  view : View
  /-- ghost: the number of presses so far, which is the number of the last one -/
  presses : Nat
  /-- ghost: the presses that have set the countdown while the main screen was the last view -/
  wakers : List Nat
  /-- ghost: the events that have reached `menuPollButtons` -/
  acted : List Acted

/-- before the first poll, `menuInit` done -/
def wakeInit : WakeState where
  scan := scanInit
  cntDown := 0
  clearOledFlag := true
  enableKeyFeature := false
  events := EventManager.init
  workMode := MODE_ON
  nav := menuStep (.ok menuNavInit) .resetNoRender
  view := .blank
  presses := 0
  wakers := []
  acted := []

/-! ## the code -/

def pollintDisplayMainMenu (s : WakeState) : WakeState :=
  if s.cntDown ≠ 0 then
    if s.clearOledFlag = false then
      { s with
        cntDown := s.cntDown - 1
        clearOledFlag := true
        enableKeyFeature := false
        events := clearAllEvent s.events
        nav := menuStep s.nav .reset
        view := .menu }
    else { s with cntDown := s.cntDown - 1, enableKeyFeature := true }
  else
    { s with
      enableKeyFeature := false
      nav := if s.clearOledFlag = true then menuStep s.nav .resetNoRender else s.nav
      clearOledFlag := false
      view := .main }

/-- ghost: the presses that have set the countdown, once the last one does so -/
def WakeState.addWaker (s : WakeState) : List Nat :=
  if s.view = .main then s.presses :: s.wakers else s.wakers

/-- a call made by `key_Scan` -/
def keyCall (s : WakeState) : KeyCall → WakeState
  | .setCntDown cnt =>
    { s with cntDown := cnt, wakers := s.addWaker }
  | .setWorkMode mode => { s with workMode := mode }
  | .pushEvtEvtPar event para =>
    { s with events := pushEvtEvtPar s.events event para (.press s.presses) }
  | .setButtonNum _ => s

def KeyResult.isPress : KeyResult → Bool
  | .key _ => true
  | _ => false

def wakeScan (s : WakeState) (p : Pins) : WakeState :=
  let answer := keyAnswer s.scan.key (getScanCode p)
  (keyScan s.scan p).2.foldl keyCall
    { s with
      scan := (keyScan s.scan p).1
      presses := if answer.isPress = true then s.presses + 1 else s.presses }

/-- what the render callbacks of the exits do outside the menu -/
def renderCall (s : WakeState) (f : Callback) : WakeState :=
  match f with
  | .exitAction =>
    { s with
      workMode := MODE_KEY
      events := pushEvtEvtPar s.events evKeyCancal MODE_KEY .exit }
  | .exit2MainMenu =>
    { s with
      cntDown := 0
      workMode := MODE_KEY
      events := pushEvtEvtPar s.events evKeyCancal MODE_KEY .exit }
  | _ => s

/-- the render callbacks called between two states of the menu, in order -/
def newRendered (before after : Except Fault MenuNav) : List Callback :=
  match before, after with
  | .ok m, .ok m' =>
    ((m'.rendered.take (m'.rendered.length - m.rendered.length)).map fun c => c.1).reverse
  | _, _ => []

/-- `menuPollButtons`, for the event `e` -/
def pollButtons (s : WakeState) (e : StrEvent Origin) (role : Role) : WakeState :=
  let nav := menuStep s.nav (.key role)
  (newRendered s.nav nav).foldl renderCall
    { s with nav := nav, view := .menu, acted := ⟨s.view, e.tag⟩ :: s.acted }

def roleOf (event : UInt8) : Option Role :=
  if event = evKeyUP then some .up
  else if event = evKeyDown then some .down
  else if event = evKeyConfirm then some .confirm
  else if event = evKeyCancal then some .cancel
  else none

def modeKey (s : WakeState) (e : StrEvent Origin) : WakeState :=
  if s.enableKeyFeature = true then
    match roleOf e.evt with
    | some role => pollButtons s e role
    | none => s
  else { s with events := clearAllEvent s.events }

/-- one round of the main loop after `pollint`; in `MODE_ON` an event is dropped -/
def dispatch (s : WakeState) : WakeState :=
  let r := readEvent s.events
  let s := { s with events := r.1 }
  if r.2.evt ≠ evNON ∧ s.workMode = MODE_KEY then modeKey s r.2 else s

inductive WakeEvent where
  | poll
  | scan (p : Pins)
  | setCntDown (cnt : UInt16)
  | dispatch

def wakeStep (s : WakeState) : WakeEvent → WakeState
  | .poll => pollintDisplayMainMenu s
  | .scan p => wakeScan s p
  | .setCntDown cnt => { s with cntDown := cnt }
  | .dispatch => dispatch s

/-! ## the invariant -/

/-- the press `id` is over: it pushes nothing and sets no countdown any more -/
def WakeState.Over (s : WakeState) (id : Nat) : Prop :=
  id < s.presses ∨ (id = s.presses ∧ s.scan.key.pressedKey = NO_CODE)

/-- a navigation event of the queue comes from a press that is over and, in the menu, no waker -/
def WakeState.QueueOk (s : WakeState) (e : StrEvent Origin) : Prop :=
  ∀ id, isNavEvent e.evt = true → e.tag = some (.press id) →
    s.Over id ∧ (s.view = .menu → id ∉ s.wakers)

structure WakeInv (s : WakeState) : Prop where
  drawn : s.view = if s.clearOledFlag = true then .menu else .main
  feature : s.enableKeyFeature = true → s.view = .menu
  queue : ∃ q : EventQueue Origin, s.events.Represents q ∧ ∀ e ∈ q.items, s.QueueOk e
  scanned : ∃ ps, s.scan = scanRun ps
  wakers : ∀ id ∈ s.wakers, id ≤ s.presses
  /-- a waker that is still pressed has been reported as a long press -/
  current : s.presses ∈ s.wakers → s.scan.key.pressedKey = NO_CODE ∨ s.scan.key3s = true
  acted : ∀ a ∈ s.acted, a.view = .menu ∧
    ∀ id, a.origin = some (.press id) → s.Over id ∧ id ∉ s.wakers
  nav : ∀ m, s.nav = .ok m → MenuInv m

/-! ## a scan, answer by answer -/

theorem wakeScan_null {s : WakeState} {p : Pins}
    (h : keyAnswer s.scan.key (getScanCode p) = .null) :
    wakeScan s p = { s with scan := (keyScan s.scan p).1 } := by
  unfold wakeScan
  rw [(keyScan_null h).2, h]
  rfl

theorem wakeScan_key {s : WakeState} {p : Pins} {k : UInt8}
    (h : keyAnswer s.scan.key (getScanCode p) = .key k) :
    wakeScan s p = { s with scan := (keyScan s.scan p).1, presses := s.presses + 1 } := by
  unfold wakeScan
  rw [(keyScan_key h).2, h]
  rfl

theorem wakeScan_reset {s : WakeState} {p : Pins} {k : UInt8}
    (h : keyAnswer s.scan.key (getScanCode p) = .reset k) :
    wakeScan s p =
      { s with
        scan := (keyScan s.scan p).1
        cntDown := 120
        wakers := s.addWaker
        events := pushEvtEvtPar s.events evRst 0xff (.press s.presses) } := by
  unfold wakeScan
  rw [(keyScan_reset h).2, h]
  rfl

theorem wakeScan_nor {s : WakeState} {p : Pins} {k : UInt8}
    (h : keyAnswer s.scan.key (getScanCode p) = .nor k) (hk : k = 4 ∨ k = 5 ∨ k = 6) :
    wakeScan s p =
      if s.scan.key3s = true then { s with scan := (keyScan s.scan p).1 }
      else
        { s with
          scan := (keyScan s.scan p).1
          cntDown := CNT_DOWN
          workMode := MODE_KEY
          wakers := s.addWaker
          events := pushEvtEvtPar s.events (navEvent k) MODE_KEY (.press s.presses) } := by
  unfold wakeScan
  rw [(keyScan_nor h hk).2, h]
  by_cases h3 : s.scan.key3s = true
  · rw [if_pos h3, if_pos h3]
    rfl
  · rw [if_neg h3, if_neg h3]
    rfl

/-! ## what a step keeps -/

/-- the events of the queue after a push -/
theorem queue_push {s s' : WakeState} {event para : UInt8} {tag : Origin}
    (hq : ∃ q : EventQueue Origin, s.events.Represents q ∧ ∀ e ∈ q.items, s.QueueOk e)
    (hmono : ∀ e, s.QueueOk e → s'.QueueOk e) (hnew : s'.QueueOk ⟨event, para, some tag⟩)
    (he : s'.events = pushEvtEvtPar s.events event para tag) :
    ∃ q : EventQueue Origin, s'.events.Represents q ∧ ∀ e ∈ q.items, s'.QueueOk e := by
  obtain ⟨q, hr, hok⟩ := hq
  refine ⟨q.push ⟨event, para, some tag⟩, ?_, fun e hmem => ?_⟩
  · rw [he]
    exact represents_write hr _
  · rcases Fifo.mem_push hmem with hmem | rfl
    · exact hmono e (hok e hmem)
    · exact hnew

/-- and where nothing was pushed -/
theorem queue_same {s s' : WakeState}
    (hq : ∃ q : EventQueue Origin, s.events.Represents q ∧ ∀ e ∈ q.items, s.QueueOk e)
    (hmono : ∀ e, s.QueueOk e → s'.QueueOk e) (he : s'.events = s.events) :
    ∃ q : EventQueue Origin, s'.events.Represents q ∧ ∀ e ∈ q.items, s'.QueueOk e := by
  obtain ⟨q, hr, hok⟩ := hq
  exact ⟨q, by rw [he]; exact hr, fun e hmem => hmono e (hok e hmem)⟩

theorem nav_step {r : Except Fault MenuNav} (h : ∀ m, r = .ok m → MenuInv m) (e : MenuEvent) :
    ∀ m, menuStep r e = .ok m → MenuInv m := by
  intro m he
  cases r with
  | error f => cases he
  | ok m0 => exact inv_of_ok (h m0 rfl) he

theorem queue_clear {s : WakeState} {m : EventManager Origin}
    (hq : ∃ q : EventQueue Origin, m.Represents q) :
    ∃ q : EventQueue Origin, (clearAllEvent m).Represents q ∧ ∀ e ∈ q.items, s.QueueOk e := by
  obtain ⟨q, hr⟩ := hq
  exact ⟨Fifo.empty, represents_clear hr, fun e hmem => absurd hmem List.not_mem_nil⟩

theorem wakePoll_inv {s : WakeState} (h : WakeInv s) : WakeInv (pollintDisplayMainMenu s) := by
  obtain ⟨hdrawn, hfeat, hq, hscan, hwk, hcur, hact, hnav⟩ := h
  have hrep : ∃ q : EventQueue Origin, s.events.Represents q := hq.imp fun q h => h.1
  unfold pollintDisplayMainMenu
  by_cases hcnt : s.cntDown ≠ 0
  · rw [if_pos hcnt]
    by_cases hclear : s.clearOledFlag = false
    · -- the menu is opened, and what the main screen's keys have pushed is cleared
      rw [if_pos hclear]
      exact ⟨rfl, nofun, queue_clear hrep, hscan, hwk, hcur, hact, nav_step hnav .reset⟩
    · rw [if_neg hclear]
      have hmenu : s.view = .menu := by
        rw [hdrawn, if_pos (Bool.eq_true_of_not_eq_false hclear)]
      exact ⟨hdrawn, fun _ => hmenu, hq, hscan, hwk, hcur, hact, hnav⟩
  · rw [if_neg hcnt]
    refine ⟨rfl, nofun, queue_same hq (fun e he id hn ht => ⟨(he id hn ht).1, nofun⟩) rfl, hscan, hwk,
      hcur, hact, ?_⟩
    show ∀ m, (if s.clearOledFlag = true then menuStep s.nav .resetNoRender else s.nav) = .ok m →
      MenuInv m
    by_cases hclear : s.clearOledFlag = true
    · rw [if_pos hclear]
      exact nav_step hnav .resetNoRender
    · rw [if_neg hclear]
      exact hnav

theorem wakeCntDown_inv {s : WakeState} (h : WakeInv s) (cnt : UInt16) :
    WakeInv { s with cntDown := cnt } :=
  ⟨h.drawn, h.feature, h.queue, h.scanned, h.wakers, h.current, h.acted, h.nav⟩

theorem queueOk_exit (s : WakeState) (event para : UInt8) : s.QueueOk ⟨event, para, some .exit⟩ := by
  intro id _ ht
  cases ht

theorem renderCall_inv {s : WakeState} (h : WakeInv s) (f : Callback) : WakeInv (renderCall s f) := by
  cases f with
  | exitAction =>
    exact ⟨h.drawn, h.feature, queue_push h.queue (fun _ he => he) (queueOk_exit _ _ _) rfl,
      h.scanned, h.wakers, h.current, h.acted, h.nav⟩
  | exit2MainMenu =>
    exact ⟨h.drawn, h.feature, queue_push h.queue (fun _ he => he) (queueOk_exit _ _ _) rfl,
      h.scanned, h.wakers, h.current, h.acted, h.nav⟩
  | select g => exact h
  | networkIp => exact h
  | networkMac => exact h
  | gps => exact h
  | systemUniversal => exact h
  | statusPrint => exact h
  | statusSynchPrint => exact h

theorem renderCalls_inv (fs : List Callback) {s : WakeState} (h : WakeInv s) :
    WakeInv (fs.foldl renderCall s) := by
  induction fs generalizing s with
  | nil => exact h
  | cons f fs ih => exact ih (renderCall_inv h f)

/-- a key event that reaches the menu -/
theorem pollButtons_inv {s : WakeState} (h : WakeInv s) (hmenu : s.view = .menu)
    {e : StrEvent Origin} (he : isNavEvent e.evt = true) (hok : s.QueueOk e) (role : Role) :
    WakeInv (pollButtons s e role) := by
  unfold pollButtons
  refine renderCalls_inv _ ⟨?_, fun _ => rfl, ?_, h.scanned, h.wakers, h.current, ?_,
    nav_step h.nav (.key role)⟩
  · exact hmenu.symm.trans h.drawn
  · exact queue_same h.queue (fun e' he' id hn ht => ⟨(he' id hn ht).1, fun _ =>
      (he' id hn ht).2 hmenu⟩) rfl
  · intro a ha
    rcases List.mem_cons.1 ha with rfl | ha
    · refine ⟨hmenu, fun id hid => ?_⟩
      obtain ⟨hover, hw⟩ := hok id he hid
      exact ⟨hover, hw hmenu⟩
    · exact h.acted a ha

theorem roleOf_nav {event : UInt8} {role : Role} (h : roleOf event = some role) :
    isNavEvent event = true := by
  unfold roleOf at h
  unfold isNavEvent
  split_ifs at h with h1 h2 h3 h4
  · simp [h1]
  · simp [h2]
  · simp [h3]
  · simp [h4]

theorem modeKey_inv {s : WakeState} (h : WakeInv s) {e : StrEvent Origin} (hok : s.QueueOk e) :
    WakeInv (modeKey s e) := by
  unfold modeKey
  by_cases hf : s.enableKeyFeature = true
  · rw [if_pos hf]
    cases hr : roleOf e.evt with
    | none => exact h
    | some role => exact pollButtons_inv h (h.feature hf) (roleOf_nav hr) hok role
  · rw [if_neg hf]
    exact ⟨h.drawn, h.feature, queue_clear (h.queue.imp fun q hq => hq.1), h.scanned, h.wakers,
      h.current, h.acted, h.nav⟩

theorem dispatch_inv {s : WakeState} (h : WakeInv s) : WakeInv (dispatch s) := by
  obtain ⟨q, hr, hok⟩ := h.queue
  obtain ⟨hpop, hread⟩ := represents_read hr
  have hinv : WakeInv { s with events := (readEvent s.events).1 } :=
    ⟨h.drawn, h.feature, ⟨q.pop, hpop, fun e he => hok e (List.mem_of_mem_tail he)⟩, h.scanned,
      h.wakers, h.current, h.acted, h.nav⟩
  have hhead : WakeState.QueueOk { s with events := (readEvent s.events).1 } (readEvent s.events).2 := by
    rw [hread]
    cases hq : q.items with
    | nil =>
      intro id _ ht
      cases ht
    | cons e es => exact hok e (hq ▸ List.mem_cons_self)
  unfold dispatch
  by_cases hm : (readEvent s.events).2.evt ≠ evNON ∧ s.workMode = MODE_KEY
  · rw [if_pos hm]
    exact modeKey_inv hinv hhead
  · rw [if_neg hm]
    exact hinv

/-! ## a scan -/

/-- `Over` looks at the debouncer only -/
theorem over_mono {s s' : WakeState} (hp : s'.presses = s.presses)
    (hk : s.scan.key.pressedKey = NO_CODE → s'.scan.key.pressedKey = NO_CODE) {id : Nat}
    (h : s.Over id) : s'.Over id := by
  unfold WakeState.Over at *
  rw [hp]
  exact h.imp_right fun h => ⟨h.1, hk h.2⟩

theorem addWaker_menu {s : WakeState} (h : s.view = .menu) : s.addWaker = s.wakers :=
  if_neg (by rw [h]; decide)

theorem addWaker_le {s : WakeState} (h : ∀ id ∈ s.wakers, id ≤ s.presses) :
    ∀ id ∈ s.addWaker, id ≤ s.presses := by
  intro id hid
  unfold WakeState.addWaker at hid
  split_ifs at hid
  · rcases List.mem_cons.1 hid with rfl | hid
    · exact Nat.le_refl _
    · exact h id hid
  · exact h id hid

theorem mem_addWaker {s : WakeState} {id : Nat} (hlt : id < s.presses) (h : id ∈ s.addWaker) :
    id ∈ s.wakers := by
  unfold WakeState.addWaker at h
  split_ifs at h
  · exact (List.mem_cons.1 h).resolve_left (Nat.ne_of_lt hlt)
  · exact h

/-- While a key is pressed, what is over belongs to an earlier press: that the present one becomes a
waker is of no consequence for it. -/
theorem over_later {s s' : WakeState} (hb : s.scan.key.pressedKey ≠ NO_CODE)
    (hp : s'.presses = s.presses) (hw : s'.wakers = s.wakers ∨ s'.wakers = s.addWaker) {id : Nat}
    (h : s.Over id) : s'.Over id ∧ (id ∈ s'.wakers → id ∈ s.wakers) := by
  have hlt : id < s.presses := h.resolve_right fun hn => hb hn.2
  refine ⟨Or.inl (by rw [hp]; exact hlt), fun hmem => ?_⟩
  rcases hw with hw | hw
  · exact hw ▸ hmem
  · rw [hw] at hmem
    exact mem_addWaker hlt hmem

theorem queueOk_later {s s' : WakeState} (hb : s.scan.key.pressedKey ≠ NO_CODE)
    (hp : s'.presses = s.presses) (hw : s'.wakers = s.wakers ∨ s'.wakers = s.addWaker)
    (hv : s'.view = s.view) (e : StrEvent Origin) (he : s.QueueOk e) : s'.QueueOk e := by
  intro id hn ht
  obtain ⟨ho, hnw⟩ := he id hn ht
  obtain ⟨ho', hmem⟩ := over_later hb hp hw ho
  exact ⟨ho', fun hm hid => hnw (hv.symm.trans hm) (hmem hid)⟩

theorem acted_later {s s' : WakeState} (hb : s.scan.key.pressedKey ≠ NO_CODE)
    (hp : s'.presses = s.presses) (hw : s'.wakers = s.wakers ∨ s'.wakers = s.addWaker)
    (ha : s'.acted = s.acted) (h : ∀ a ∈ s.acted, a.view = .menu ∧
      ∀ id, a.origin = some (.press id) → s.Over id ∧ id ∉ s.wakers) :
    ∀ a ∈ s'.acted, a.view = .menu ∧
      ∀ id, a.origin = some (.press id) → s'.Over id ∧ id ∉ s'.wakers := by
  intro a hmem
  rw [ha] at hmem
  obtain ⟨hview, hid⟩ := h a hmem
  refine ⟨hview, fun id ho => ?_⟩
  obtain ⟨hover, hno⟩ := hid id ho
  obtain ⟨hover', hw'⟩ := over_later hb hp hw hover
  exact ⟨hover', fun hm => hno (hw' hm)⟩

/-- a scan that sets no countdown, and keeps over what is over -/
theorem quietScan_inv {s s' : WakeState} (h : WakeInv s) (hover : ∀ id, s.Over id → s'.Over id)
    (hnext : ∃ ps, s'.scan = scanRun ps) (hle : s.presses ≤ s'.presses)
    (hcur : s'.presses ∈ s.wakers → s'.scan.key.pressedKey = NO_CODE ∨ s'.scan.key3s = true)
    (he : s' = { s with scan := s'.scan, presses := s'.presses }) : WakeInv s' := by
  obtain ⟨hdrawn, hfeat, hq, -, hwk, -, hact, hnav⟩ := h
  rw [he]
  refine ⟨hdrawn, hfeat, queue_same hq ?_ rfl, hnext, fun id hid => (hwk id hid).trans hle, hcur, ?_,
    hnav⟩
  · exact fun e hok id hn ht => ⟨hover id (hok id hn ht).1, (hok id hn ht).2⟩
  · exact fun a ha => ⟨(hact a ha).1, fun id hid =>
      ⟨hover id ((hact a ha).2 id hid).1, ((hact a ha).2 id hid).2⟩⟩

/-- a scan that sets the countdown and pushes an event of the press -/
theorem callingScan_inv {s s' : WakeState} (h : WakeInv s) (hb : s.scan.key.pressedKey ≠ NO_CODE)
    (hnext : ∃ ps, s'.scan = scanRun ps) {event para : UInt8}
    (hcur : s'.scan.key.pressedKey = NO_CODE ∨ s'.scan.key3s = true)
    (hnew : isNavEvent event = true → s'.scan.key.pressedKey = NO_CODE ∧ s.scan.key3s ≠ true)
    (he : s' = { s with
      scan := s'.scan
      cntDown := s'.cntDown
      workMode := s'.workMode
      wakers := s.addWaker
      events := pushEvtEvtPar s.events event para (.press s.presses) }) : WakeInv s' := by
  have hpres : s'.presses = s.presses := by rw [he]
  have hwk : s'.wakers = s.addWaker := by rw [he]
  have hview : s'.view = s.view := by rw [he]
  have hclear : s'.clearOledFlag = s.clearOledFlag := by rw [he]
  have hfeat : s'.enableKeyFeature = s.enableKeyFeature := by rw [he]
  have hact : s'.acted = s.acted := by rw [he]
  have hnav : s'.nav = s.nav := by rw [he]
  have hev : s'.events = pushEvtEvtPar s.events event para (.press s.presses) := by rw [he]
  refine ⟨?_, ?_, ?_, hnext, ?_, fun _ => hcur, ?_, ?_⟩
  · rw [hview, hclear]
    exact h.drawn
  · rw [hview, hfeat]
    exact h.feature
  · refine queue_push h.queue (queueOk_later hb hpres (Or.inr hwk) hview) ?_ hev
    -- in the menu, the press whose event this is is no waker: it was not reported as a long press
    intro id hn ht
    cases ht
    obtain ⟨hfree, h3⟩ := hnew hn
    refine ⟨Or.inr ⟨hpres.symm, hfree⟩, fun hm hmem => ?_⟩
    rw [hwk, addWaker_menu (hview.symm.trans hm)] at hmem
    rcases h.current hmem with hp | hp
    · exact hb hp
    · exact h3 hp
  · rw [hwk, hpres]
    exact addWaker_le h.wakers
  · exact acted_later hb hpres (Or.inr hwk) hact h.acted
  · rw [hnav]
    exact h.nav

theorem wakeScan_inv {s : WakeState} (h : WakeInv s) (p : Pins) : WakeInv (wakeScan s p) := by
  obtain ⟨ps, hps⟩ := h.scanned
  have hkinv := scan_inv ps
  rw [← hps] at hkinv
  have hnext : ∃ ps', (keyScan s.scan p).1 = scanRun ps' := ⟨ps ++ [p], by rw [scanRun_snoc, hps]; rfl⟩
  have hkey := keyScan_key_state s.scan p
  obtain ⟨hrel, hnul⟩ := keyStep_answer s.scan.key (getScanCode p)
  rw [← hkey] at hrel hnul
  cases hr : keyAnswer s.scan.key (getScanCode p) with
  | null =>
    have hpk := hnul hr
    rw [wakeScan_null hr]
    refine quietScan_inv h (fun id ho => over_mono ?_ ?_ ho) hnext (Nat.le_refl _) ?_ rfl
    · rfl
    · exact fun hn => hpk.trans hn
    · intro hw
      show (keyScan s.scan p).1.key.pressedKey = _ ∨ (keyScan s.scan p).1.key3s = _
      rw [hpk, (keyScan_null hr).1]
      exact h.current hw
  | key k =>
    rw [wakeScan_key hr]
    refine quietScan_inv h (fun id ho => ?_) hnext (Nat.le_succ _) ?_ rfl
    · rcases ho with ho | ⟨ho, -⟩
      · exact Or.inl (Nat.lt_succ_of_lt ho)
      · exact Or.inl (ho ▸ Nat.lt_succ_self _)
    · exact fun hw => absurd (h.wakers _ hw) (Nat.not_succ_le_self _)
  | reset k =>
    obtain ⟨hp, hne⟩ := hkinv.reset_pressed hr
    rw [wakeScan_reset hr]
    refine callingScan_inv h (hp ▸ hne) hnext (Or.inr (keyScan_reset hr).1) (fun hn => ?_) rfl
    exact absurd (show isNavEvent evRst = true from hn) (by decide)
  | nor k =>
    obtain ⟨hp, hne, -⟩ := hkinv.release_backed hr
    have hk : k = 4 ∨ k = 5 ∨ k = 6 := by
      rw [hps] at hr
      exact release_key ps hr
    have hfree := hrel k hr
    rw [wakeScan_nor hr hk]
    by_cases h3 : s.scan.key3s = true
    · rw [if_pos h3]
      refine quietScan_inv h (fun id ho => over_mono ?_ ?_ ho) hnext (Nat.le_refl _) ?_ rfl
      · rfl
      · exact fun _ => hfree
      · exact fun _ => Or.inl hfree
    · rw [if_neg h3]
      exact callingScan_inv h (hp ▸ hne) hnext (Or.inl hfree) (fun _ => ⟨hfree, h3⟩) rfl

/-! ## every run -/

theorem wakeStep_inv (s : WakeState) (e : WakeEvent) (h : WakeInv s) : WakeInv (wakeStep s e) := by
  cases e with
  | poll => exact wakePoll_inv h
  | scan p => exact wakeScan_inv h p
  | setCntDown cnt => exact wakeCntDown_inv h cnt
  | dispatch => exact dispatch_inv h

/-- the first poll draws the main screen -/
theorem wakeInv_first : WakeInv (wakeStep wakeInit .poll) where
  drawn := rfl
  feature := nofun
  queue := ⟨Fifo.empty, represents_init, fun e he => absurd he List.not_mem_nil⟩
  scanned := ⟨[], rfl⟩
  wakers := fun id hid => absurd hid List.not_mem_nil
  current := fun hid => absurd hid List.not_mem_nil
  acted := fun a ha => absurd ha List.not_mem_nil
  nav := by
    have hinit : ∀ m, wakeInit.nav = .ok m → MenuInv m :=
      nav_step (r := .ok menuNavInit) (fun m hm => Except.ok.inj hm ▸ inv_init) .resetNoRender
    exact nav_step hinit .resetNoRender

/-- the menu is opened at the first item of the home menu, the cursor on the first line -/
theorem poll_opens {s : WakeState} (h : WakeInv s) (hmain : s.view = .main)
    (hmenu : (pollintDisplayMainMenu s).view = .menu) {m : MenuNav} (hm : s.nav = .ok m) :
    ∃ m', (pollintDisplayMainMenu s).nav = .ok m' ∧ m'.currentState = menuLevel1 ∧
      m'.position menuLevel1 = (0, 0) := by
  obtain ⟨n, T, ho, -⟩ := h.nav m hm
  obtain ⟨m0, he0, hc0, ho0, -⟩ := menuReset_home ho.level
  have hreset : menuStep s.nav .reset = .ok m0 := by
    rw [hm]
    show m.menuReset = _
    unfold MenuNav.menuReset
    rw [he0, ok_bind, renderMenu_ok ho0 hc0, ok_bind]
  have hpos : m0.position menuLevel1 = (0, 0) := by
    have hs := he0
    unfold MenuNav.menuResetNoRenderMenu at hs
    rw [state_of_lt m (by decide), ok_bind] at hs
    cases hs
    unfold MenuNav.position
    show (((m.set menuLevel1 _).states menuLevel1).currentItemIdx,
      ((m.set menuLevel1 _).states menuLevel1).cursorLine) = _
    rw [set_self]
    rfl
  have hclear : s.clearOledFlag = false := by
    have hd := h.drawn
    by_contra hn
    rw [if_pos (Bool.eq_true_of_not_eq_false hn), hmain] at hd
    cases hd
  unfold pollintDisplayMainMenu at hmenu ⊢
  by_cases hcnt : s.cntDown ≠ 0
  · rw [if_pos hcnt, if_pos hclear]
    exact ⟨m0, hreset, hc0, hpos⟩
  · rw [if_neg hcnt] at hmenu
    cases hmenu

/-- **Waking.**  In every run that begins with a poll, from power-up: every event that has reached
`menuPollButtons` found the menu as the last view drawn; none of them comes from a press that has set
the countdown with the main screen drawn last; and a poll that changes the view from the main screen
to the menu opens it on level 1, at item 0 with the cursor on line 0, as long as no key has made the
menu fault. -/
theorem wake_law (es : List WakeEvent) :
    (∀ a ∈ (run wakeStep wakeInit (.poll :: es)).acted, a.view = .menu ∧
      ∀ id, a.origin = some (.press id) → id ∉ (run wakeStep wakeInit (.poll :: es)).wakers) ∧
    (∀ m, (run wakeStep wakeInit (.poll :: es)).view = .main →
      (wakeStep (run wakeStep wakeInit (.poll :: es)) .poll).view = .menu →
      (run wakeStep wakeInit (.poll :: es)).nav = .ok m →
      ∃ m', (wakeStep (run wakeStep wakeInit (.poll :: es)) .poll).nav = .ok m' ∧
        m'.currentState = menuLevel1 ∧ m'.position menuLevel1 = (0, 0)) := by
  have h : WakeInv (run wakeStep wakeInit (.poll :: es)) :=
    run_invariant wakeStep_inv wakeInv_first es
  refine ⟨fun a ha => ⟨(h.acted a ha).1, fun id hid => ((h.acted a ha).2 id hid).2⟩, ?_⟩
  exact fun m hmain hmenu hm => poll_opens h hmain hmenu hm

end MenuFirmware
