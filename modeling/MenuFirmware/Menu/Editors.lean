import MenuFirmware.Config.Events
import MenuFirmware.Menu.Safety

/-!
# The editors of the IP address, the MAC address and the UTC offset (`menu_items.c`)

Each of the three callbacks edits a copy of a field, kept with a flag in static variables that all
fields of the kind share and that outlive the screen.

* `Editor`, `Statics`    the three callbacks, and the static variables of each;
* `editActionCallback`   a key in an editor; `EditState.render`: what the render callbacks do;
* `editStep`             a key or a timeout, for the menu and the editors together;
* `Editing`              what the static variables have to do with the screen; `editing_step`;
* `StoresShown`          every stored value was on the screen for its field;
* `editor_has_field`     no key is lost between the menu and the editors;
* `shown_iff`            so it is iff no field is confirmed at once with the value of another one.
-/

set_option linter.unusedSectionVars false
set_option linter.unusedVariables false

namespace MenuFirmware
open Runs

/-! ## the editors -/

inductive Editor where
  | networkIp
  | networkMac
  | gps
  deriving DecidableEq

def Editor.arr : Editor → Arr
  | .networkIp => .ip
  | .networkMac => .mac
  | .gps => .utcOffset

/-- the element that is edited from the item `column`; the UTC offset is no array -/
def Editor.field : (e : Editor) → Nat → Option (Fin e.arr.num)
  | .networkIp, column => if h : column < 4 then some ⟨column, h⟩ else none
  | .networkMac, column => if h : column < 6 then some ⟨column, h⟩ else none
  | .gps, _ => some ⟨0, Nat.one_pos⟩

def Callback.editor : Callback → Option Editor
  | .networkIp => some .networkIp
  | .networkMac => some .networkMac
  | .gps => some .gps
  | _ => none

abbrev Field := (e : Editor) × Fin e.arr.num

def fieldOf (p : Callback × Nat) : Option Field :=
  p.1.editor.bind fun e => (e.field p.2).map fun i => ⟨e, i⟩

/-- the static variables of a callback -/
structure Statics where
  once : Bool
  temp : UInt8
  deriving DecidableEq

structure Store where
  editor : Editor
  column : Nat
  /-- what the field holds from then on -/
  value : UInt8
  /-- what the screen showed -/
  shown : UInt8
  deriving DecidableEq

structure EditState where
  nav : Except Fault MenuNav
  dev : Dev
  statics : Editor → Statics
  /-- ghost: the value that the editor drew last -/
  shown : UInt8
  /-- ghost: an arrow key has come since the editor was opened -/
  touched : Bool
  /-- ghost: the values stored so far -/
  stores : List Store

def editStart (d : Dev) : EditState where
  nav := .ok menuNavInit
  dev := d
  statics _ := ⟨true, 0⟩
  shown := 0
  touched := false
  stores := []

/-! ## keys in an editor -/

/-- the beginning of each callback -/
def loadTemp (v : Statics) (x : UInt8) : Statics :=
  if v.temp ≠ x ∧ v.once = true then { v with temp := x } else v

def EditState.setStatics (s : EditState) (e : Editor) (v : Statics) : EditState :=
  { s with statics := Function.update s.statics e v }

/-- an arrow key: the new value is drawn -/
def EditState.draw (s : EditState) (e : Editor) (temp : UInt8) : EditState :=
  { s.setStatics e ⟨false, temp⟩ with shown := temp, touched := true }

def editActionCallback (e : Editor) (s : EditState) (column : Fin e.arr.num) (role : Role) :
    EditState :=
  let v := loadTemp (s.statics e) (s.dev.arr e.arr column)
  match role with
  | .up => s.draw e (v.temp + 1)
  | .down => s.draw e (v.temp - 1)
  | .confirm =>
    if v.once = false then
      let d := editConfirm e.arr s.dev column v.temp
      { s.setStatics e { v with once := true } with
        dev := d
        stores := ⟨e, column, d.arr e.arr column, s.shown⟩ :: s.stores }
    else s.setStatics e v
  | .cancel => s.setStatics e ⟨false, s.dev.arr e.arr column⟩

def configNetworkIpActionCallback := editActionCallback .networkIp
def configNetworkMacActionCallback := editActionCallback .networkMac
def configGpsActionCallback := editActionCallback .gps

def EditState.actionCallback (s : EditState) : (f : Field) → Role → EditState
  | ⟨.networkIp, column⟩, role => configNetworkIpActionCallback s column role
  | ⟨.networkMac, column⟩, role => configNetworkMacActionCallback s column role
  | ⟨.gps, column⟩, role => configGpsActionCallback s column role

theorem actionCallback_eq (s : EditState) (e : Editor) (column : Fin e.arr.num) (role : Role) :
    s.actionCallback ⟨e, column⟩ role = editActionCallback e s column role := by
  cases e <;> rfl

/-! ## the menu and the editors together -/

/-- the callback that gets the next key, and the item for which it is called -/
def MenuNav.openCallback (m : MenuNav) : Option (Callback × Nat) := do
  let c ← m.cur.toOption
  if c.level ≠ menuCallback then none
  else
    let p ← m.prev.toOption
    let it ← p.item.toOption
    let f ← it.btnHandleCallback
    some (f, c.currentItemIdx)

/-- the field whose editor has the screen -/
def EditState.openField (s : EditState) : Option Field :=
  match s.nav with
  | .ok m => m.openCallback.bind fieldOf
  | .error _ => none

/-- the callback that has the screen gets the key -/
def EditState.press (s : EditState) (role : Role) : EditState :=
  match s.openField with
  | some f => s.actionCallback f role
  | none => s

/-- `Restart_Action`, `Restore_Action`; the other items only draw -/
def systemUniversalCallbackRender (d : Dev) : Nat → Dev
  | 1 => { d with reStart := true }
  | 2 => { restoreFlash d with reStart := true }
  | _ => d

/-- the editor draws its field -/
def EditState.editRender (s : EditState) : Option Field → EditState
  | some ⟨e, column⟩ => { s with shown := s.dev.arr e.arr column, touched := false }
  | none => s

/-- the render callbacks -/
def EditState.render (s : EditState) (f : Callback) (which : Nat) : EditState :=
  match f with
  | .select g => { s with dev := if h : which < g.num then selectRender s.dev g ⟨which, h⟩ else s.dev }
  | .networkIp => s.editRender (fieldOf (.networkIp, which))
  | .networkMac => s.editRender (fieldOf (.networkMac, which))
  | .gps => s.editRender (fieldOf (.gps, which))
  | .systemUniversal => { s with dev := systemUniversalCallbackRender s.dev which }
  | .statusPrint | .statusSynchPrint | .exitAction | .exit2MainMenu => s

/-- the render callbacks that the event has called, the last one first -/
def renderedSince : Except Fault MenuNav → Except Fault MenuNav → List (Callback × Nat)
  | .ok m, .ok m' => m'.rendered.take (m'.rendered.length - m.rendered.length)
  | _, _ => []

/-- a key goes to the callback that has the screen -/
def EditState.react (s : EditState) : MenuEvent → EditState
  | .key role => s.press role
  | _ => s

def editStep (s : EditState) (ev : MenuEvent) : EditState :=
  (renderedSince s.nav (menuStep s.nav ev)).foldr (fun c t => t.render c.1 c.2)
    { s.react ev with nav := menuStep s.nav ev }

/-! ## what is to hold -/

def StoresShown (s : EditState) : Prop := ∀ p ∈ s.stores, p.value = p.shown

/-- where confirm is the first key in an editor and `once` is clear, `temp` is the value of the
field and not what is left from another session -/
def Belongs (s : EditState) : MenuEvent → Prop
  | .key .confirm => ∀ e column, s.openField = some ⟨e, column⟩ → s.touched = false →
      (s.statics e).once = false → (s.statics e).temp = s.dev.arr e.arr column
  | _ => True

/-! ## which callback has the screen -/

theorem openCallback_menu {m : MenuNav} {n : Nat} {T : Nat → Table} (h : Opened m n T)
    (hc : m.currentState = n) : m.openCallback = none := by
  have hle := h.le
  have hne : n ≠ menuCallback := by unfold menuCallback; omega
  unfold MenuNav.openCallback
  rw [cur_eq h hc]
  show (if (m.states n).level ≠ menuCallback then none else _) = none
  rw [cur_level h hc, if_pos hne]

theorem openCallback_callback {m : MenuNav} {n k : Nat} {T : Nat → Table} {it : MenuItem}
    (h : Opened m n T) (ho : CallbackOpen m n (T n) k it) {f : Callback}
    (hf : it.renderCallback = some f) :
    m.openCallback = some (f, (m.states menuCallback).currentItemIdx) := by
  have hb := item_callbacks (List.mem_of_getElem? ho.found)
  unfold MenuNav.openCallback
  rw [cur_callback h ho, prev_callback h ho]
  show (if (m.states menuCallback).level ≠ menuCallback then none else
    (m.states n).item.toOption >>= fun it => it.btnHandleCallback >>= fun f =>
      some (f, (m.states menuCallback).currentItemIdx)) = _
  rw [level_callback h ho, if_neg (not_not.2 rfl), item_callback h ho]
  show (it.btnHandleCallback >>= fun f => some (f, (m.states menuCallback).currentItemIdx)) = _
  rw [hb, hf]
  rfl

theorem openCallback_at {m : MenuNav} {f : Callback} {column : Nat} (h : AtCallback m f column) :
    m.openCallback = some (f, column) := by
  obtain ⟨n, T, k, it, ho, hc, hf, rfl⟩ := h
  exact openCallback_callback ho hc hf

theorem openCallback_atMenu {m : MenuNav} (h : AtMenu m) : m.openCallback = none := by
  obtain ⟨n, T, ho, hc⟩ := h
  exact openCallback_menu ho hc

/-! ## one event for the editors -/

theorem openField_ok {s : EditState} {m : MenuNav} (h : s.nav = .ok m) :
    s.openField = m.openCallback.bind fieldOf := by
  unfold EditState.openField
  rw [h]

theorem openField_none {s : EditState} {m : MenuNav} (h : s.nav = .ok m) (hm : m.openCallback = none) :
    s.openField = none := by
  rw [openField_ok h, hm]
  rfl

theorem openField_error {s : EditState} {fault : Fault} (h : s.nav = .error fault) :
    s.openField = none := by
  unfold EditState.openField
  rw [h]

theorem press_none {s : EditState} (h : s.openField = none) (role : Role) : s.press role = s := by
  unfold EditState.press
  rw [h]

theorem press_some {s : EditState} {e : Editor} {column : Fin e.arr.num}
    (h : s.openField = some ⟨e, column⟩) (role : Role) :
    s.press role = editActionCallback e s column role := by
  unfold EditState.press
  rw [h]
  exact actionCallback_eq s e column role

theorem react_none {s : EditState} (h : s.openField = none) (ev : MenuEvent) : s.react ev = s := by
  cases ev with
  | key role => exact press_none h role
  | otherKey => rfl
  | reset => rfl
  | resetNoRender => rfl

theorem render_frame (s : EditState) (f : Callback) (which : Nat) :
    (s.render f which).nav = s.nav ∧ (s.render f which).stores = s.stores := by
  have hedit : ∀ o, (s.editRender o).nav = s.nav ∧ (s.editRender o).stores = s.stores := by
    intro o
    cases o <;> exact ⟨rfl, rfl⟩
  cases f with
  | networkIp => exact hedit _
  | networkMac => exact hedit _
  | gps => exact hedit _
  | select g => exact ⟨rfl, rfl⟩
  | systemUniversal => exact ⟨rfl, rfl⟩
  | statusPrint => exact ⟨rfl, rfl⟩
  | statusSynchPrint => exact ⟨rfl, rfl⟩
  | exitAction => exact ⟨rfl, rfl⟩
  | exit2MainMenu => exact ⟨rfl, rfl⟩

/-- only the three editors have fields -/
theorem editor_of_field {f : Callback} {k : Nat} {d : Field} (h : fieldOf (f, k) = some d) :
    f = .networkIp ∨ f = .networkMac ∨ f = .gps := by
  cases f with
  | networkIp => exact Or.inl rfl
  | networkMac => exact Or.inr (Or.inl rfl)
  | gps => exact Or.inr (Or.inr rfl)
  | select g => exact absurd h nofun
  | systemUniversal => exact absurd h nofun
  | statusPrint => exact absurd h nofun
  | statusSynchPrint => exact absurd h nofun
  | exitAction => exact absurd h nofun
  | exit2MainMenu => exact absurd h nofun

theorem render_field (s : EditState) {f : Callback} {which : Nat} {e : Editor}
    {column : Fin e.arr.num} (h : fieldOf (f, which) = some ⟨e, column⟩) :
    s.render f which = { s with shown := s.dev.arr e.arr column, touched := false } := by
  have hedit : s.editRender (fieldOf (f, which))
      = { s with shown := s.dev.arr e.arr column, touched := false } := by
    rw [h]
    rfl
  rcases editor_of_field h with rfl | rfl | rfl
  · exact hedit
  · exact hedit
  · exact hedit

theorem editStep_error {s : EditState} {fault : Fault} (h : s.nav = .error fault) (ev : MenuEvent) :
    editStep s ev = s := by
  have hnav : menuStep s.nav ev = s.nav := by
    rw [h]
    rfl
  have hr : renderedSince s.nav s.nav = [] := by
    rw [h]
    rfl
  unfold editStep
  rw [hnav, hr, react_none (openField_error h)]
  rfl

theorem editStep_fault {s : EditState} {m : MenuNav} {ev : MenuEvent} {fault : Fault}
    (h : s.nav = .ok m) (he : menuStep (.ok m) ev = .error fault) :
    editStep s ev = { s.react ev with nav := .error fault } := by
  unfold editStep
  rw [h, he]
  rfl

theorem editStep_same {s : EditState} {m m' : MenuNav} {ev : MenuEvent} (h : s.nav = .ok m)
    (he : menuStep (.ok m) ev = .ok m') (hr : m'.rendered = m.rendered) :
    editStep s ev = { s.react ev with nav := .ok m' } := by
  have hnil : renderedSince (.ok m) (.ok m') = [] := by
    show m'.rendered.take (m'.rendered.length - m.rendered.length) = []
    rw [hr, Nat.sub_self]
    rfl
  unfold editStep
  rw [h, he, hnil]
  rfl

theorem editStep_render {s : EditState} {m m' : MenuNav} {ev : MenuEvent} {f : Callback} {k : Nat}
    (h : s.nav = .ok m) (he : menuStep (.ok m) ev = .ok m')
    (hr : m'.rendered = (f, k) :: m.rendered) :
    editStep s ev = { s.react ev with nav := .ok m' }.render f k := by
  have hone : renderedSince (.ok m) (.ok m') = [(f, k)] := by
    show m'.rendered.take (m'.rendered.length - m.rendered.length) = [(f, k)]
    rw [hr, List.length_cons, Nat.add_sub_cancel_left]
    rfl
  unfold editStep
  rw [h, he, hone]
  rfl

/-! ## what the editors keep -/

theorem loadTemp_of_clear {v : Statics} (h : v.once = false) (x : UInt8) : loadTemp v x = v := by
  unfold loadTemp
  rw [if_neg]
  rintro ⟨-, hset⟩
  exact absurd (h.symm.trans hset) Bool.false_ne_true

theorem loadTemp_once (v : Statics) (x : UInt8) : (loadTemp v x).once = v.once := by
  unfold loadTemp
  by_cases h : v.temp ≠ x ∧ v.once = true
  · rw [if_pos h]
  · rw [if_neg h]

/-- **A confirmed value is stored** in the field. -/
theorem confirm_stores (d : Dev) (e : Editor) (column : Fin e.arr.num) (temp : UInt8) :
    (editConfirm e.arr d column temp).arr e.arr column = temp := by
  show (arrUpdate _).arr e.arr column = _
  rw [arrUpdate_arr]
  -- the copy of the menu fields leaves the three arrays alone
  have hset : ∀ a : Arr, ∀ c : Fin a.num, ∀ x : UInt8,
      (d.setArr a (Function.update (d.arr a) c x)).arr a c = x := by
    intro a c x
    exact (congrFun (Function.update_self ..) c).trans (Function.update_self ..)
  cases e with
  | networkIp => exact hset .ip column _
  | networkMac => exact hset .mac column _
  | gps => exact hset .utcOffset column _

/-- the confirm key, where the callback stores -/
theorem confirm_clear {s : EditState} {e : Editor} {column : Fin e.arr.num}
    (h : (s.statics e).once = false) :
    editActionCallback e s column .confirm =
      { s.setStatics e { s.statics e with once := true } with
        dev := editConfirm e.arr s.dev column (s.statics e).temp
        stores := ⟨e, column, (s.statics e).temp, s.shown⟩ :: s.stores } := by
  have hstored := confirm_stores s.dev e column (s.statics e).temp
  unfold editActionCallback
  rw [loadTemp_of_clear h]
  refine (if_pos h).trans ?_
  simp only [hstored]

theorem confirm_set {s : EditState} {e : Editor} {column : Fin e.arr.num}
    (h : ¬ (s.statics e).once = false) :
    (editActionCallback e s column .confirm).stores = s.stores := by
  have hl : ¬ (loadTemp (s.statics e) (s.dev.arr e.arr column)).once = false := by
    rw [loadTemp_once]
    exact h
  have heq : editActionCallback e s column .confirm
      = s.setStatics e (loadTemp (s.statics e) (s.dev.arr e.arr column)) := if_neg hl
  rw [heq]
  rfl

/-- an arrow key draws what it leaves in `temp` -/
theorem draw_spec (s : EditState) (e : Editor) (temp : UInt8) :
    (s.draw e temp).touched = true ∧ ((s.draw e temp).statics e).once = false ∧
      (s.draw e temp).shown = ((s.draw e temp).statics e).temp ∧ (s.draw e temp).stores = s.stores := by
  have hself : (s.draw e temp).statics e = ⟨false, temp⟩ := Function.update_self ..
  rw [hself]
  exact ⟨rfl, rfl, rfl, rfl⟩

structure Editing (s : EditState) : Prop where
  nav : ∀ m, s.nav = .ok m → MenuInv m
  touched : ∀ e column, s.openField = some ⟨e, column⟩ → s.touched = true →
    (s.statics e).once = false ∧ s.shown = (s.statics e).temp
  fresh : ∀ e column, s.openField = some ⟨e, column⟩ → s.touched = false →
    s.shown = s.dev.arr e.arr column
  stores : StoresShown s

theorem Editing.of_closed {s : EditState} (h : s.openField = none) (hn : ∀ m, s.nav = .ok m → MenuInv m)
    (hs : StoresShown s) : Editing s := by
  refine ⟨hn, ?_, ?_, hs⟩
  · intro e column he
    exact absurd (h.symm.trans he) nofun
  · intro e column he
    exact absurd (h.symm.trans he) nofun

theorem react_stores {s : EditState} {ev : MenuEvent} (h : Editing s) (hb : Belongs s ev) :
    StoresShown (s.react ev) := by
  cases ev with
  | otherKey => exact h.stores
  | reset => exact h.stores
  | resetNoRender => exact h.stores
  | key role =>
    cases hf : s.openField with
    | none =>
      rw [react_none hf]
      exact h.stores
    | some f =>
      obtain ⟨e, column⟩ := f
      have hp : s.react (.key role) = editActionCallback e s column role := press_some hf role
      rw [hp]
      cases role with
      | up => exact h.stores
      | down => exact h.stores
      | cancel => exact h.stores
      | confirm =>
        by_cases ho : (s.statics e).once = false
        · rw [confirm_clear ho]
          rintro p (_ | ⟨_, hmem⟩)
          · show (s.statics e).temp = s.shown
            cases ht : s.touched with
            | true => exact (h.touched e column hf ht).2.symm
            | false =>
              rw [h.fresh e column hf ht]
              exact hb e column hf ht ho
          · exact h.stores p hmem
        · unfold StoresShown
          rw [confirm_set ho]
          exact h.stores

/-- the first key in a field stores what belongs to another one -/
theorem react_not_shown {s : EditState} {ev : MenuEvent} (h : Editing s) (hb : ¬ Belongs s ev) :
    ¬ StoresShown (s.react ev) := by
  cases ev with
  | otherKey => exact absurd trivial hb
  | reset => exact absurd trivial hb
  | resetNoRender => exact absurd trivial hb
  | key role =>
    cases role with
    | up => exact absurd trivial hb
    | down => exact absurd trivial hb
    | cancel => exact absurd trivial hb
    | confirm =>
      intro hs
      refine hb fun e column hf ht ho => ?_
      have hp : s.react (.key .confirm) = editActionCallback e s column .confirm := press_some hf _
      rw [hp, confirm_clear ho] at hs
      have hlast := hs ⟨e, column, (s.statics e).temp, s.shown⟩ List.mem_cons_self
      rw [← h.fresh e column hf ht]
      exact hlast

/-- only the arrow keys keep an editor on the screen -/
theorem arrow_of_stays {m : MenuNav} {f : Callback} {k : Nat} {d : Field} {role : Role}
    (hf : fieldOf (f, k) = some d) (hb : btnHandleCallback m f role = .ok (false, m)) :
    role = .up ∨ role = .down := by
  have hleave : ∀ role, role = .confirm ∨ role = .cancel → btnHandleCallback m f role = .ok (true, m) := by
    intro role hrole
    rcases editor_of_field hf with rfl | rfl | rfl
    · rcases hrole with rfl | rfl <;> rfl
    · rcases hrole with rfl | rfl <;> rfl
    · rcases hrole with rfl | rfl <;> rfl
  have hne : ¬ (role = .confirm ∨ role = .cancel) := by
    intro hrole
    have htrue := Except.ok.inj ((hleave role hrole).symm.trans hb)
    exact absurd (congrArg Prod.fst htrue) nofun
  cases role with
  | up => exact Or.inl rfl
  | down => exact Or.inr rfl
  | confirm => exact absurd (Or.inl rfl) hne
  | cancel => exact absurd (Or.inr rfl) hne

/-- an arrow key in an open editor -/
theorem editing_draw {s : EditState} {m : MenuNav} (h : Editing s) (hn : s.nav = .ok m) {d : Field}
    (hf : s.openField = some d) (temp : UInt8) :
    Editing { s.draw d.1 temp with nav := .ok m } := by
  obtain ⟨ht, ho, hshown, hstores⟩ := draw_spec s d.1 temp
  have hopen : ({ s.draw d.1 temp with nav := .ok m } : EditState).openField = some d :=
    (openField_ok rfl).trans ((openField_ok hn).symm.trans hf)
  refine ⟨?_, ?_, ?_, h.stores⟩
  · rintro m' ⟨⟩
    exact h.nav m hn
  · intro e column he _
    obtain rfl := Option.some.inj (hopen.symm.trans he)
    exact ⟨ho, hshown⟩
  · intro e column he hfalse
    exact absurd (ht.symm.trans hfalse) nofun

/-- a key in a callback that keeps the screen, or no key -/
theorem editing_stays {s : EditState} {m : MenuNav} {ev : MenuEvent} (h : Editing s)
    (hn : s.nav = .ok m) (hkey : ∀ role, ev = .key role → ∃ f k, AtCallback m f k ∧
      btnHandleCallback m f role = .ok (false, m)) :
    Editing { s.react ev with nav := .ok m } := by
  have hsame : Editing { s with nav := .ok m } := by
    rw [← hn]
    exact h
  cases ev with
  | otherKey => exact hsame
  | reset => exact hsame
  | resetNoRender => exact hsame
  | key role =>
    obtain ⟨f, k, hcall, hbtn⟩ := hkey role rfl
    have hopen : s.openField = fieldOf (f, k) := by
      rw [openField_ok hn, openCallback_at hcall]
      rfl
    cases hf : fieldOf (f, k) with
    | none =>
      rw [react_none (hopen.trans hf)]
      exact hsame
    | some d =>
      obtain ⟨e, column⟩ := d
      have hp : s.react (.key role) = editActionCallback e s column role :=
        press_some (hopen.trans hf) role
      rw [hp]
      rcases arrow_of_stays hf hbtn with rfl | rfl
      · exact editing_draw h hn (hopen.trans hf) _
      · exact editing_draw h hn (hopen.trans hf) _

/-- a callback gets the screen -/
theorem editing_render {s : EditState} {m' : MenuNav} {f : Callback} {k : Nat}
    (hinv : MenuInv m') (ho : m'.openCallback = some (f, k)) (hs : StoresShown s) :
    Editing (({ s with nav := .ok m' } : EditState).render f k) := by
  have hopen : ∀ t : EditState, t.nav = .ok m' → t.openField = fieldOf (f, k) := by
    intro t ht
    rw [openField_ok ht, ho]
    rfl
  have hnav : ∀ m, (Except.ok m' : Except Fault MenuNav) = .ok m → MenuInv m := by
    rintro m ⟨⟩
    exact hinv
  cases hf : fieldOf (f, k) with
  | none =>
    obtain ⟨hn, hstores⟩ := render_frame { s with nav := .ok m' } f k
    refine .of_closed ((hopen _ hn).trans hf) ?_ ?_
    · rw [hn]
      exact hnav
    · unfold StoresShown
      rw [hstores]
      exact hs
  | some d =>
    obtain ⟨e, column⟩ := d
    rw [render_field _ hf]
    refine ⟨hnav, ?_, ?_, hs⟩
    · intro e' column' _ ht
      exact absurd ht Bool.false_ne_true
    · intro e' column' he _
      obtain ⟨⟩ := Option.some.inj ((((hopen _ rfl).trans hf).symm).trans he)
      rfl

theorem editing_step (s : EditState) (ev : MenuEvent) (h : Editing s) (hb : Belongs s ev) :
    Editing (editStep s ev) := by
  cases hn : s.nav with
  | error fault =>
    rw [editStep_error hn]
    exact h
  | ok m =>
    have hs := react_stores h hb
    by_cases hg : NotHomeExit (.ok m) ev
    · obtain ⟨m', he, hout⟩ := menuStep_ok (h.nav m hn) ev hg
      cases hout with
      | stays hm hkey =>
        subst hm
        rw [editStep_same hn he rfl]
        exact editing_stays h hn hkey
      | menu hm =>
        rw [editStep_same hn he hm.2]
        refine .of_closed (openField_none rfl (openCallback_atMenu hm.1)) ?_ hs
        rintro m2 ⟨⟩
        exact hm.1.inv
      | callback hm hcall =>
        obtain ⟨f, k, hat, hr, -⟩ := hcall
        rw [editStep_render hn he hr]
        exact editing_render hat.inv (openCallback_at hat) hs
    · rw [editStep_fault hn (menuStep_fault (h.nav m hn) hg)]
      exact .of_closed (openField_error rfl) nofun hs

theorem renders_frame (l : List (Callback × Nat)) (t : EditState) :
    (l.foldr (fun c t => t.render c.1 c.2) t).nav = t.nav ∧
      (l.foldr (fun c t => t.render c.1 c.2) t).stores = t.stores := by
  induction l with
  | nil => exact ⟨rfl, rfl⟩
  | cons c l ih =>
    obtain ⟨hn, hs⟩ := render_frame (l.foldr (fun c t => t.render c.1 c.2) t) c.1 c.2
    exact ⟨hn.trans ih.1, hs.trans ih.2⟩

theorem editStep_nav (s : EditState) (ev : MenuEvent) :
    (editStep s ev).nav = menuStep s.nav ev := (renders_frame _ _).1

theorem editStep_stores (s : EditState) (ev : MenuEvent) :
    (editStep s ev).stores = (s.react ev).stores := (renders_frame _ _).2

theorem editing_bad (s : EditState) (ev : MenuEvent) (h : Editing s) (hb : ¬ Belongs s ev) :
    ¬ StoresShown (editStep s ev) := by
  unfold StoresShown
  rw [editStep_stores]
  exact react_not_shown h hb

theorem editing_start (d : Dev) : Editing (editStart d) := by
  have ho : Opened menuNavInit 0 fun _ => .home := Opened_home (fun _ _ => rfl) rfl rfl rfl
  refine .of_closed (openField_none rfl (openCallback_menu ho rfl)) ?_ (fun p hp => absurd hp List.not_mem_nil)
  rintro m ⟨⟩
  exact ⟨0, _, ho, Or.inl rfl⟩

/-! ## the item of an editor has a field -/

def CallbackFound (r : Except Fault MenuNav) : Prop :=
  ∀ m, r = .ok m → MenuInv m ∧ ∀ f k, m.openCallback = some (f, k) →
    ∃ (t : Table) (it : MenuItem), t.items[k]? = some it ∧ it.renderCallback = some f

theorem callbackFound_step (r : Except Fault MenuNav) (e : MenuEvent) (h : CallbackFound r) :
    CallbackFound (menuStep r e) := by
  cases r with
  | error fault => exact h
  | ok m =>
    obtain ⟨hinv, hfound⟩ := h m rfl
    by_cases hg : NotHomeExit (.ok m) e
    · obtain ⟨m', he, hout⟩ := menuStep_ok hinv e hg
      rw [he]
      rintro _ ⟨⟩
      refine ⟨hout.inv hinv, fun f k ho => ?_⟩
      cases hout with
      | stays hm hkey =>
        rw [hm] at ho
        exact hfound f k ho
      | menu hm => exact absurd ((openCallback_atMenu hm.1).symm.trans ho) nofun
      | callback hm hcall =>
        obtain ⟨f', k', hat, -, hit⟩ := hcall
        obtain ⟨rfl, rfl⟩ := Prod.mk.inj (Option.some.inj ((openCallback_at hat).symm.trans ho))
        exact hit
    · rw [menuStep_fault hinv hg]
      exact nofun

theorem field_found {t : Table} {k : Nat} {it : MenuItem} {f : Callback} {e : Editor}
    (hit : t.items[k]? = some it) (hf : it.renderCallback = some f) (he : f.editor = some e) :
    (e.field k).isSome := by
  have hall : ∀ p ∈ t.items.zipIdx, ∀ f ∈ p.1.renderCallback, ∀ e ∈ f.editor, (e.field p.2).isSome := by
    cases t <;> decide
  exact hall (it, k) (List.mem_zipIdx_iff_getElem?.2 hit) f hf e he

theorem callbackFound_start (d : Dev) : CallbackFound (editStart d).nav := by
  rintro _ ⟨⟩
  have h0 : Opened menuNavInit 0 fun _ => .home := Opened_home (fun _ _ => rfl) rfl rfl rfl
  refine ⟨⟨0, _, h0, Or.inl rfl⟩, fun f k hf => ?_⟩
  exact absurd ((openCallback_menu h0 rfl).symm.trans hf) nofun

/-- **In every run** an editor that has the screen has a field: `press` loses no key. -/
theorem editor_has_field (d : Dev) (es : List MenuEvent) {m : MenuNav} {f : Callback} {k : Nat}
    {e : Editor} (h : (run editStep (editStart d) es).nav = .ok m)
    (ho : m.openCallback = some (f, k)) (he : f.editor = some e) :
    ∃ column, (run editStep (editStart d) es).openField = some ⟨e, column⟩ := by
  have hfound : CallbackFound (run editStep (editStart d) es).nav := by
    refine run_invariant (P := fun s : EditState => CallbackFound s.nav) (fun s ev hs => ?_)
      (callbackFound_start d) es
    rw [editStep_nav]
    exact callbackFound_step s.nav ev hs
  obtain ⟨t, it, hit, hf⟩ := (hfound m h).2 f k ho
  obtain ⟨column, hc⟩ := Option.isSome_iff_exists.1 (field_found hit hf he)
  refine ⟨column, ?_⟩
  rw [openField_ok h, ho]
  show (f.editor.bind fun e => (e.field k).map fun i => (⟨e, i⟩ : Field)) = _
  rw [he]
  show (e.field k).map _ = _
  rw [hc]
  rfl

/-- **The editors.**  From any device, every value that is ever stored was on the screen for its
field iff no field is confirmed at once while `temp` holds the value of another session. -/
theorem shown_iff (d : Dev) (es : List MenuEvent) :
    Always editStep StoresShown (editStart d) es ↔ Along editStep Belongs (editStart d) es :=
  Always_iff_Along (fun _ h => h.stores) editing_step editing_bad (editing_start d)

/-- cancel in the first field of the IP address, confirm in the second -/
def cancelThenConfirm : List MenuEvent :=
  [.reset, .key .down, .key .confirm, .key .down, .key .down, .key .down, .key .confirm,
    .key .confirm, .key .confirm, .key .cancel, .key .down, .key .confirm, .key .confirm]

theorem first_field_confirmed_into_second :
    (run editStep (editStart (savedDev defaultArr)) cancelThenConfirm).stores
      = [⟨.networkIp, 1, 192, 168⟩] ∧
    ¬ Always editStep StoresShown (editStart (savedDev defaultArr)) cancelThenConfirm := by
  have hstores : (run editStep (editStart (savedDev defaultArr)) cancelThenConfirm).stores
      = [⟨.networkIp, 1, 192, 168⟩] := rfl
  refine ⟨hstores, fun h => ?_⟩
  have hlast := h.last ⟨.networkIp, 1, 192, 168⟩ (by rw [hstores]; exact List.mem_cons_self)
  exact absurd hlast (by decide)

end MenuFirmware
