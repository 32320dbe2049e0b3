import MenuFirmware.Config.Device
import MenuFirmware.Lib.Memory
import MenuFirmware.Menu.Items
import MenuFirmware.Oled.Text

/-!
# The titles of the menus (`menu_items.c`)

An item has its title in an array of characters.  Those of the address menus are overwritten with the
addresses; the items of a settings menu have a status beside the title.

* `Table.titles`      the titles as they are initialised;
* `ipIntToChar`, `myMacIntToChar`   a byte in decimal and in hexadecimal digits;
* `ipMacChar`         the addresses are written over the titles;
* `itemTitle`, `itemStatus`   what stands on the line of an item;
* `LabelsOf`          the titles are those of the addresses of a configuration;
* `settingTitle`      the title of an item as the configuration has it.
-/

set_option linter.unusedSectionVars false

namespace MenuFirmware
open Memory

/-! ## the tables -/

/-- the titles of a settings menu, and of its exit -/
def Table.titles : Table → List String
  | .home => ["    System   >", "    Config   >", "    Status   >", "<   Exit      "]
  | .system =>
    ["   Version   >", "   Restart    ", "   Restore    ", "   Update     ", "   Feature   >",
      "<    Exit     "]
  | .systemFeature =>
    ["     GPS      ", "   OVEN_XO    ", "     HDMI     ", "     HDSDI    ", "   TEST_PAT   ",
      "<    Exit     "]
  | .config =>
    ["   Format    >", "   Video     >", "   Audio     >", "   Network   >", "   GPS       >",
      "   SRC/SWK   >", "   Display   >", "<  Exit       "]
  | .configFormat =>
    ["    Auto      ", "  720p50HZ    ", "  720p59HZ    ", "  720p60HZ    ", "  1080i50HZ   ",
      "  1080i59HZ   ", "  1080i60HZ   ", "  1080p23HZ   ", "  1080p24HZ   ", "  1080p25HZ   ",
      "  1080p29HZ   ", "  1080p30HZ   ", "  1080p50HZ   ", "  1080p59HZ   ", "  1080p60HZ   ",
      " 1080pSF23HZ  ", " 1080pSF24HZ  ", "<    Exit     "]
  | .configVideo => ["    Input    >", "    Output   >", "<   Exit      "]
  | .configVideoInput =>
    ["     HDMI     ", "     HDSDI    ", "   TEST_PAT   ", "<    Exit     "]
  | .configVideoOutput => ["    HDMI      ", "    HDSDI     ", "<   Exit      "]
  | .configAudio => ["    Input    >", "    Output   >", "<   Exit      "]
  | .configNetwork => ["     IP      >", "     MAC     >", "<    Exit     "]
  | .configNetworkIp => ["192      ", "168      ", "000      ", "190      ", "<Exit    "]
  | .configNetworkMac =>
    ["00      ", "80      ", "E1      ", "00      ", "00      ", "00      ", "<Exit   "]
  | .configSrc =>
    ["    Mode    >", " Sync_Type  >", " Clock_Type >", " Sync_Frame >", "<   Exit     "]
  | .configSrcMode => ["    Master    ", "    Slave     ", "<   Exit      "]
  | .configSrcSyncType =>
    ["   Bot_Greg   ", "   Bot_Black  ", "   Bot_White  ", "   Top_Greg   ", "   Top_Black  ",
      "   Top_White  ", " Four_corners ", "   Obvious    ", "   Hidden_1   ", "   Hidden_2   ",
      "   Hidden_3   ", "   Hidden_4   ", "<    Exit     "]
  | .configSrcClockType =>
    ["   Wrie_Mode  ", "   OSC_Mode   ", "   GPS_Mode   ", "<    Exit     "]
  | .configSrcSyncFrame =>
    ["  25_Frames   ", "  30_Frames   ", "  50_Frames   ", "  60_Frames   ", "  100_Frames  ",
      "  120_Frames  ", "<    Exit     "]
  | .configDisplay => ["     Mode    >", " Brightness  >", "<    Exit     "]
  | .configDisplayMode => ["Video_Display ", "Audio_Display ", "   Detail     ", "<    Exit     "]
  | .configDisplayBrightness => ["  High_Light  ", "  Low_Light   ", "<    Exit     "]
  | .status =>
    ["Video_Format >", "Audio_Format >", "   Ethernet  >", "   Error     >", "   Synch     >",
      "<  Exit       "]
  | .statusSynch => [" Master_side >", " Slave_side  >", "<    Exit     "]

/-- the group whose statuses stand beside the titles of a table -/
def Table.group : Table → Option Group
  | .systemFeature => some .systemFeature
  | .configFormat => some .configFormat
  | .configVideoInput => some .configVideoInput
  | .configVideoOutput => some .configVideoOutput
  | .configSrcMode => some .configSrcMode
  | .configSrcSyncType => some .configSrcSyncType
  | .configSrcClockType => some .configSrcClockType
  | .configSrcSyncFrame => some .configSrcSyncFrame
  | .configDisplayMode => some .configDisplayMode
  | .configDisplayBrightness => some .configDisplayBrightness
  | _ => none

theorem titles_length (t : Table) : t.titles.length = t.items.length := by cases t <;> rfl

/-! ## the addresses as titles -/

/-- `title` of the items of the two address menus -/
structure Labels where
  ip : Fin 4 → Nat → UInt8
  mac : Fin 6 → Nat → UInt8

def labelsInit : Labels where
  ip i := literal (Table.configNetworkIp.titles.getD i "")
  mac i := literal (Table.configNetworkMac.titles.getD i "")

/-- `ip_char`, whose last byte stays zero -/
def ipIntToChar (n : UInt8) : List UInt8 := [n / 100 + 0x30, n % 100 / 10 + 0x30, n % 10 + 0x30, 0]

def hexChar (n : UInt8) : UInt8 := if n + 0x30 > 0x39 then n + 0x30 + 7 else n + 0x30

/-- `mac_char` -/
def myMacIntToChar (n : UInt8) : List UInt8 := [hexChar (n / 16), hexChar (n % 16), 0]

def ipMacChar (c : Config) (l : Labels) : Labels where
  ip i := memcpy (l.ip i) 0 (ipIntToChar (c .ip i))
  mac i := memcpy (l.mac i) 0 (myMacIntToChar (c .mac i))

def itemTitle (l : Labels) (t : Table) (k : Nat) : Nat → UInt8 :=
  match t with
  | .configNetworkIp => if h : k < 4 then l.ip ⟨k, h⟩ else literal (t.titles.getD k "")
  | .configNetworkMac => if h : k < 6 then l.mac ⟨k, h⟩ else literal (t.titles.getD k "")
  | _ => literal (t.titles.getD k "")

/-- `NONE` -/
def statusNone : UInt8 := 2

def itemStatus (m : Menu) (t : Table) (k : Nat) : UInt8 :=
  match t.group with
  | some g => if h : k < g.num then m g ⟨k, h⟩ else statusNone
  | none => statusNone

/-! ## strings -/

/-- the string in a `title` -/
def titleText (title : Nat → UInt8) : List UInt8 :=
  ((List.range 20).map title).takeWhile fun c => c != 0

theorem titleText_eq {title : Nat → UInt8} {s : List UInt8} (h : NulTerminated title s)
    (hlen : s.length < 20) : titleText title = s := by
  have hsplit : 20 = s.length + (1 + (19 - s.length)) := by omega
  have hfirst : (List.range s.length).map title = s := by
    refine List.ext_getElem (by rw [List.length_map, List.length_range]) fun i h1 h2 => ?_
    rw [List.getElem_map, List.getElem_range, h.chars i h2, List.getD_eq_getElem]
  have hnonzero : ∀ c ∈ s, (c != 0) = true := fun c hc =>
    bne_iff_ne.2 fun h0 => h.nonzero (h0 ▸ hc)
  unfold titleText
  rw [hsplit, List.range_add, List.map_append, hfirst, List.takeWhile_append_of_pos hnonzero,
    List.map_map, List.range_add, List.map_append]
  show s ++ List.takeWhile _ (title (s.length + 0) :: _) = s
  rw [Nat.add_zero, h.nul]
  exact List.append_nil s

/-- no character of a literal is a NUL -/
def PlainText (s : String) : Prop := (0 : UInt8) ∉ chars s

instance : DecidablePred PlainText := fun s => by
  unfold PlainText
  infer_instance

theorem literal_terminated {s : String} (h : PlainText s) : NulTerminated (literal s) (chars s) where
  nonzero := h
  chars := fun _ _ => rfl
  nul := List.getD_eq_default _ _ le_rfl

/-- a line of the menu ends before the column of the status -/
def titleLength : Nat := 14

theorem titles_plain (t : Table) :
    ∀ s ∈ t.titles, PlainText s ∧ (chars s).length ≤ titleLength := by cases t <;> decide +kernel

/-! ## the addresses are shown -/

/-- the decimal digits that `ip_int_to_char` leaves before the NUL -/
def decimalText (n : UInt8) : List UInt8 := [n / 100 + 0x30, n % 100 / 10 + 0x30, n % 10 + 0x30]

def hexText (n : UInt8) : List UInt8 := [hexChar (n / 16), hexChar (n % 16)]

theorem digits_nonzero : ∀ k < 256,
    (0 : UInt8) ∉ decimalText (UInt8.ofNat k) ∧ (0 : UInt8) ∉ hexText (UInt8.ofNat k) := by
  decide +kernel

theorem digits_plain (n : UInt8) : (0 : UInt8) ∉ decimalText n ∧ (0 : UInt8) ∉ hexText n := by
  have h := digits_nonzero n.toNat n.toNat_lt
  rwa [UInt8.ofNat_toNat] at h

theorem copied_terminated (title : Nat → UInt8) {s : List UInt8} (h : (0 : UInt8) ∉ s) :
    NulTerminated (memcpy title 0 (s ++ [0])) s where
  nonzero := h
  chars := by
    intro i hi
    show (s ++ [0]).getD i (title i) = _
    rw [List.getD_append _ _ _ _ hi, List.getD_eq_getElem _ _ hi, List.getD_eq_getElem _ _ hi]
  nul := by
    show (s ++ [0]).getD s.length (title s.length) = 0
    rw [List.getD_append_right _ _ _ _ le_rfl, Nat.sub_self]
    rfl

/-- the titles are the digits of the addresses -/
structure LabelsOf (c : Config) (l : Labels) : Prop where
  ip : ∀ i : Fin 4, NulTerminated (l.ip i) (decimalText (c .ip i))
  mac : ∀ i : Fin 6, NulTerminated (l.mac i) (hexText (c .mac i))

theorem labelsOf_ipMacChar (c : Config) (l : Labels) : LabelsOf c (ipMacChar c l) := by
  refine ⟨fun i => ?_, fun i => ?_⟩
  · exact copied_terminated (l.ip i) (digits_plain (c .ip i)).1
  · exact copied_terminated (l.mac i) (digits_plain (c .mac i)).2

/-- they depend on the addresses only -/
theorem LabelsOf.congr {c c' : Config} {l : Labels} (h : LabelsOf c l) (hip : c' .ip = c .ip)
    (hmac : c' .mac = c .mac) : LabelsOf c' l where
  ip := by
    rw [hip]
    exact h.ip
  mac := by
    rw [hmac]
    exact h.mac

/-- every line is a string that ends before the column of the status -/
theorem itemTitle_text {c : Config} {l : Labels} (h : LabelsOf c l) {t : Table} {k : Nat}
    (hk : k < t.items.length) :
    NulTerminated (itemTitle l t k) (titleText (itemTitle l t k)) ∧
      (titleText (itemTitle l t k)).length ≤ titleLength := by
  have hof : ∀ {title : Nat → UInt8} {s : List UInt8}, NulTerminated title s → s.length ≤ titleLength →
      NulTerminated title (titleText title) ∧ (titleText title).length ≤ titleLength := by
    intro title s hs hlen
    have heq : titleText title = s := titleText_eq hs (Nat.lt_of_le_of_lt hlen (by decide))
    rw [heq]
    exact ⟨hs, hlen⟩
  have hlit : NulTerminated (literal (t.titles.getD k "")) (chars (t.titles.getD k "")) ∧
      (chars (t.titles.getD k "")).length ≤ titleLength := by
    have hlt : k < t.titles.length := by rwa [titles_length]
    rw [List.getD_eq_getElem _ _ hlt]
    obtain ⟨hplain, hlen⟩ := titles_plain t _ (List.getElem_mem hlt)
    exact ⟨literal_terminated hplain, hlen⟩
  unfold itemTitle
  split
  · by_cases h4 : k < 4
    · rw [dif_pos h4]
      exact hof (h.ip ⟨k, h4⟩) (by decide : 3 ≤ titleLength)
    · rw [dif_neg h4]
      exact hof hlit.1 hlit.2
  · by_cases h6 : k < 6
    · rw [dif_pos h6]
      exact hof (h.mac ⟨k, h6⟩) (by decide : 2 ≤ titleLength)
    · rw [dif_neg h6]
      exact hof hlit.1 hlit.2
  · exact hof hlit.1 hlit.2

/-- the title that the settings give an item -/
def settingTitle (c : Config) (t : Table) (k : Nat) : List UInt8 :=
  match t with
  | .configNetworkIp => if h : k < 4 then decimalText (c .ip ⟨k, h⟩) else chars (t.titles.getD k "")
  | .configNetworkMac => if h : k < 6 then hexText (c .mac ⟨k, h⟩) else chars (t.titles.getD k "")
  | _ => chars (t.titles.getD k "")

theorem titleText_setting {c : Config} {l : Labels} (h : LabelsOf c l) {t : Table} {k : Nat}
    (hk : k < t.items.length) : titleText (itemTitle l t k) = settingTitle c t k := by
  have hlit : titleText (literal (t.titles.getD k "")) = chars (t.titles.getD k "") := by
    have hlt : k < t.titles.length := by rwa [titles_length]
    rw [List.getD_eq_getElem _ _ hlt]
    obtain ⟨hplain, hlen⟩ := titles_plain t _ (List.getElem_mem hlt)
    exact titleText_eq (literal_terminated hplain) (Nat.lt_of_le_of_lt hlen (by decide))
  unfold settingTitle itemTitle
  cases t with
  | configNetworkIp =>
    by_cases h4 : k < 4
    · rw [dif_pos h4, dif_pos h4]
      exact titleText_eq (h.ip ⟨k, h4⟩) (by decide : 3 < 20)
    · rw [dif_neg h4, dif_neg h4]
      exact hlit
  | configNetworkMac =>
    by_cases h6 : k < 6
    · rw [dif_pos h6, dif_pos h6]
      exact titleText_eq (h.mac ⟨k, h6⟩) (by decide : 2 < 20)
    · rw [dif_neg h6, dif_neg h6]
      exact hlit
  | _ => exact hlit

end MenuFirmware
