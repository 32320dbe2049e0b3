import MenuFirmware.Config.Registers
import MenuFirmware.Menu.Editors
import MenuFirmware.Menu.Titles

/-!
# What the callbacks draw (`menu_items.c`, `meau_status_list.c`, `meau_system_list.c`)

A callback that opens a page clears the panel and writes on it; a key that does not leave the page
draws it again.

* `StatusEnv`         what the status pages read from outside;
* `videoFormatText`, `ethernetText`, `errorText`, `versionTexts`   the texts of the pages;
* `callbackCalls`     what the render callbacks draw;
* `buttonCalls`       what the button callbacks draw;
* `editorTexts`, `pageTexts`   the texts of an open page;
* `callback_draws`    a render callback draws the texts of its page on a cleared panel.
-/

set_option linter.unusedSectionVars false
set_option linter.unusedVariables false

namespace MenuFirmware
open Runs

/-! ## the texts -/

structure StatusEnv where
  /-- `Reg_0x83_num`, `Reg_0x84_num` -/
  reg83 : UInt8
  reg84 : UInt8
  /-- `regvalue` of `Read_Eth_Link_Status` -/
  phy : UInt32

def readEthLinkStatus (env : StatusEnv) : UInt8 :=
  if env.phy = 0x784d then 1 else if env.phy = 0x7849 then 0 else 2

/-- the names of the formats, from `status_flag` 1 on -/
def formatNames : List String :=
  ["720p60Hz", "720p50Hz", "720p59Hz", "720p60Hz", "1080i50Hz", "1080i59Hz", "1080i60Hz",
    "1080p23Hz", "1080p24Hz", "1080p25Hz", "1080p29Hz", "1080p30Hz", "1080p50Hz", "1080p59Hz",
    "1080p60Hz", "1080pSF23Hz", "1080pSF24Hz"]

def resolutionNames : List (UInt8 × String) :=
  [(0x00, "1920x1080"), (0x01, "1280x720"), (0x02, "2048x1080"), (0x03, "1920x1080"),
    (0x08, "720x486"), (0x09, "720x576"), (0x0f, "No_Detect")]

def rateNames : List (UInt8 × String) :=
  [(0x02, "23Hz"), (0x03, "24Hz"), (0x04, "47Hz"), (0x05, "25Hz"), (0x06, "29Hz"), (0x07, "30Hz"),
    (0x08, "48Hz"), (0x09, "50Hz"), (0x0a, "59Hz"), (0x0b, "60Hz")]

/-- a `switch` without a default -/
def nameOf (names : List (UInt8 × String)) (n : UInt8) : List UInt8 :=
  chars ((names.lookup n).getD "")

/-- what the registers say about the input -/
def detectedText (reg83 reg84 : UInt8) : List UInt8 :=
  nameOf resolutionNames (reg83 &&& 0x0f) ++
    if reg83 &&& 0x0f ≠ 0x0f then
      chars (if reg83 &&& 0x10 ≠ 0 then "p" else "i") ++ nameOf rateNames (reg84 &&& 0x0f)
    else []

/-- `Display_Video_Format`; a test picture has the format that is configured -/
def videoFormatText (d : Dev) (env : StatusEnv) : List UInt8 :=
  let statusFlag := getConfig (d.arr Group.configFormat)
  let testPat := getConfig (d.arr Group.configVideoInput)
  if testPat = 3 then
    if statusFlag = 0 then [] else chars (formatNames.getD (statusFlag.toNat - 1) "")
  else if testPat = 2 then detectedText env.reg83 env.reg84
  else []

/-- `Display_Ethernet_Status` -/
def ethernetText (env : StatusEnv) : List UInt8 :=
  if readEthLinkStatus env = 1 then chars "Link"
  else if readEthLinkStatus env = 0 then chars "No_Link"
  else chars "ETH_ERROR"

/-- `Display_Error_Status` -/
def errorText (d : Dev) : List UInt8 :=
  if d.statusFlag = 0 then chars "0.0.0" else if d.statusFlag = 1 then chars "0.0.1" else []

/-- `_0x_to_char` -/
def versionText (bytes : List UInt8) : List UInt8 := bytes.flatMap hexText

/-- `hw_0x_to_char`, with the dot between the digits -/
def hwText (hw : UInt8) : List UInt8 := [hw / 16 + 0x30, ascii '.', hw % 16 + 0x30]

/-- the lines of `Display_Version` -/
def versionTexts (d : Dev) : List (List UInt8) :=
  [chars "SW:" ++ versionText (List.ofFn getSw), chars "HW:V" ++ hwText d.hw,
    chars "FW:" ++ versionText ((getFw d).getD [])]

/-- sign and last two digits of the UTC offset: the sign is written over the first of three digits -/
def offsetText (temp : UInt8) : List UInt8 :=
  if temp < 128 then ascii '+' :: (decimalText temp).drop 1
  else ascii '-' :: (decimalText (0 - temp)).drop 1

/-! ## pages -/

/-- a line of a page, in the small font -/
def pageLine (y : UInt8) (text : List UInt8) : Text := ⟨0, y, text, 12, false⟩

def pageMessage (y : UInt8) (s : String) : Text := pageLine y (chars s)

/-- the status pages have a larger font -/
def statusLine (text : List UInt8) : Text := ⟨0, 2, text, 16, false⟩

def menuY : UInt8 := 3

/-- an editor with a value -/
def editorTexts (e : Editor) (value : UInt8) : List Text :=
  match e with
  | .networkIp => [pageLine menuY (decimalText value)]
  | .networkMac => [pageLine menuY (hexText value)]
  | .gps => [pageMessage menuY "UTC_offset:", ⟨96, menuY, offsetText value, 12, false⟩]

def systemTexts (d : Dev) (which : Nat) : List Text :=
  match which with
  | 0 => (versionTexts d).mapIdx fun i text => pageLine (UInt8.ofNat (i + 1)) text
  | 3 => [pageMessage 2 "FACTORY ONLY"]
  | _ => []

def statusTexts (d : Dev) (env : StatusEnv) (which : Nat) : List Text :=
  match which with
  | 0 => [statusLine (videoFormatText d env)]
  | 1 => [pageMessage 2 "No_Support"]
  | 2 => [statusLine (ethernetText env)]
  | 3 => [statusLine (errorText d)]
  | _ => []

def synchTexts (which : Nat) : List Text :=
  match which with
  | 0 => [pageMessage menuY "Lock/No_Lock"]
  | 1 => [pageMessage menuY "Lock_No_Lock"]
  | _ => []

/-- a choice has been made -/
def choiceTexts : List Text := [pageMessage (menuY + 1) "The key to exit"]

/-- `text` followed by a NUL -/
def cString (text : List UInt8) : Nat → UInt8 := fun i => text.getD i 0

/-- the calls that draw texts -/
def drawTexts (texts : List Text) : List ScreenCall := texts.map fun t => t.call (cString t.text)

/-! ## what is drawn -/

/-- the two video groups do nothing for an item that cannot be operated -/
def NotOperable (d : Dev) (g : Group) (which : Nat) : Prop :=
  (g = .configVideoInput ∨ g = .configVideoOutput) ∧
    ∃ h : which < g.num, d.menu g ⟨which, h⟩ = nonOperate

instance (d : Dev) (g : Group) (which : Nat) : Decidable (NotOperable d g which) := by
  unfold NotOperable
  infer_instance

/-- the brightness takes effect between the two messages; the first item is the high one -/
def selectCalls (d : Dev) (g : Group) (which : Nat) : List ScreenCall :=
  if NotOperable d g which then []
  else
    .clear :: (drawTexts [pageMessage menuY "TX Data To FPGA"] ++
      (if g = .configDisplayBrightness then [.contrast (if which = 0 then 0xff else 0x0f)] else []) ++
      .clear :: drawTexts choiceTexts)

/-- a field is drawn when its editor opens -/
def fieldTexts (d : Dev) : Option Field → List Text
  | some ⟨e, column⟩ => editorTexts e (d.arr e.arr column)
  | none => []

def editorCalls (d : Dev) (f : Callback) (which : Nat) : List ScreenCall :=
  .clear :: drawTexts (fieldTexts d (fieldOf (f, which)))

/-- the render callbacks -/
def callbackCalls (d : Dev) (env : StatusEnv) (f : Callback) (which : Nat) : List ScreenCall :=
  match f with
  | .select g => selectCalls d g which
  | .networkIp | .networkMac | .gps => editorCalls d f which
  | .systemUniversal => .clear :: drawTexts (systemTexts d which)
  | .statusPrint => .clear :: drawTexts (statusTexts d env which)
  | .statusSynchPrint => .clear :: drawTexts (synchTexts which)
  | .exitAction | .exit2MainMenu => []

/-- a key in an editor, where `v` are its static variables once the field is loaded -/
def editorButtonCalls (e : Editor) (v : Statics) (role : Role) : List ScreenCall :=
  .clear :: match role with
    | .up => drawTexts (editorTexts e (v.temp + 1))
    | .down => drawTexts (editorTexts e (v.temp - 1))
    | .confirm =>
      if v.once = false then
        drawTexts [pageMessage menuY "Save To Flash..."] ++
          .clear :: drawTexts [pageMessage menuY "  Save To Flash", pageMessage (menuY + 1) "The key to exit"]
      else []
    | .cancel => []

def fieldCalls (s : EditState) (role : Role) : Option Field → List ScreenCall
  | some ⟨e, i⟩ => editorButtonCalls e (loadTemp (s.statics e) (s.dev.arr e.arr i)) role
  | none => []

/-- the button callbacks -/
def buttonCalls (s : EditState) (f : Callback) (column : Nat) (role : Role) : List ScreenCall :=
  match f with
  | .select g => if NotOperable s.dev g column then [] else [.clear]
  | .networkIp | .networkMac | .gps => fieldCalls s role (fieldOf (f, column))
  | .statusSynchPrint =>
    match role with
    | .up | .down => .clear :: drawTexts (synchTexts column)
    | .confirm | .cancel => []
  | .systemUniversal | .statusPrint | .exitAction | .exit2MainMenu => []

/-- the texts of an open page, where the editor has drawn `shown`; `none` where the callback leaves the
menu on the panel -/
def pageTexts (d : Dev) (env : StatusEnv) (shown : UInt8) (f : Callback) (column : Nat) :
    Option (List Text) :=
  match f with
  | .select g => if NotOperable d g column then none else some choiceTexts
  | .networkIp | .networkMac | .gps => (fieldOf (f, column)).map fun p => editorTexts p.1 shown
  | .systemUniversal => some (systemTexts d column)
  | .statusPrint => some (statusTexts d env column)
  | .statusSynchPrint => some (synchTexts column)
  | .exitAction | .exit2MainMenu => none

/-! ## the pages fit -/

theorem cString_terminated {text : List UInt8} (h : (0 : UInt8) ∉ text) :
    NulTerminated (cString text) text where
  nonzero := h
  chars := fun _ _ => rfl
  nul := List.getD_eq_default _ _ le_rfl

theorem drawTexts_draws {texts : List Text} (h : ∀ t ∈ texts, t.Fits) :
    List.Forall₂ Draws (drawTexts texts) texts := by
  induction texts with
  | nil => exact List.Forall₂.nil
  | cons t texts ih =>
    have hfits := h t List.mem_cons_self
    exact List.Forall₂.cons (draws_text hfits (cString_terminated hfits.nonzero))
      (ih fun u hu => h u (List.mem_cons_of_mem t hu))

/-- a page that can be drawn -/
structure PageFits (texts : List Text) : Prop where
  fits : ∀ t ∈ texts, t.Fits
  apart : TextsApart texts

theorem PageFits.nil : PageFits [] := ⟨fun t ht => absurd ht List.not_mem_nil, List.Pairwise.nil⟩

theorem PageFits.single {t : Text} (h : t.Fits) : PageFits [t] :=
  ⟨fun u hu => (List.mem_singleton.1 hu).symm ▸ h, List.pairwise_singleton _ _⟩

theorem pageLine_fits {y : UInt8} (hy : (y + 1).toNat < 8) {text : List UInt8}
    (hlen : text.length ≤ 16) (hnul : (0 : UInt8) ∉ text) : (pageLine y text).Fits :=
  ⟨Or.inl rfl, hnul, (by omega : 0 + 8 * text.length ≤ 128), hy⟩

theorem statusLine_fits {text : List UInt8} (hlen : text.length ≤ 16) (hnul : (0 : UInt8) ∉ text) :
    (statusLine text).Fits :=
  ⟨Or.inr rfl, hnul, (by omega : 0 + 8 * text.length ≤ 128), (by decide : 2 + 2 ≤ 8)⟩

/-- a text of at most `n` characters without a NUL -/
structure ShortText (n : Nat) (text : List UInt8) : Prop where
  length : text.length ≤ n
  nonzero : (0 : UInt8) ∉ text

instance (n : Nat) : DecidablePred (ShortText n) := fun text =>
  decidable_of_iff (text.length ≤ n ∧ (0 : UInt8) ∉ text)
    ⟨fun h => ⟨h.1, h.2⟩, fun h => ⟨h.length, h.nonzero⟩⟩

theorem ShortText.append {m n : Nat} {a b : List UInt8} (ha : ShortText m a) (hb : ShortText n b) :
    ShortText (m + n) (a ++ b) where
  length := by
    rw [List.length_append]
    exact Nat.add_le_add ha.length hb.length
  nonzero := fun h => (List.mem_append.1 h).elim ha.nonzero hb.nonzero

theorem ShortText.mono {m n : Nat} {text : List UInt8} (h : ShortText m text) (hmn : m ≤ n) :
    ShortText n text := ⟨Nat.le_trans h.length hmn, h.nonzero⟩

theorem PageFits.line {y : UInt8} (hy : (y + 1).toNat < 8) {text : List UInt8} (h : ShortText 16 text) :
    PageFits [pageLine y text] := PageFits.single (pageLine_fits hy h.length h.nonzero)

theorem PageFits.status {text : List UInt8} (h : ShortText 16 text) : PageFits [statusLine text] :=
  PageFits.single (statusLine_fits h.length h.nonzero)

/-! ### digits -/

theorem decimalText_short (n : UInt8) : ShortText 3 (decimalText n) :=
  ⟨le_rfl, (digits_plain n).1⟩

theorem hexText_short (n : UInt8) : ShortText 2 (hexText n) :=
  ⟨le_rfl, (digits_plain n).2⟩

theorem offsetText_short (temp : UInt8) : ShortText 3 (offsetText temp) := by
  have hdrop : ∀ n : UInt8, (0 : UInt8) ∉ (decimalText n).drop 1 := fun n h =>
    (digits_plain n).1 (List.mem_of_mem_drop h)
  unfold offsetText
  split
  · exact ⟨le_rfl, fun h => (List.mem_cons.1 h).elim (by decide) (hdrop temp)⟩
  · exact ⟨le_rfl, fun h => (List.mem_cons.1 h).elim (by decide) (hdrop (0 - temp))⟩

theorem editorTexts_fits (e : Editor) (value : UInt8) : PageFits (editorTexts e value) := by
  cases e with
  | networkIp => exact PageFits.line (by decide) ((decimalText_short value).mono (by decide))
  | networkMac => exact PageFits.line (by decide) ((hexText_short value).mono (by decide))
  | gps =>
    have hoffset := offsetText_short value
    have hlabel : (pageMessage menuY "UTC_offset:").Fits :=
      pageLine_fits (by decide) (by decide) (by decide)
    have hvalue : (Text.mk 96 menuY (offsetText value) 12 false).Fits := by
      refine ⟨Or.inl rfl, hoffset.nonzero, ?_, (by decide : 4 + 1 ≤ 8)⟩
      have hlen := hoffset.length
      show 96 + 8 * (offsetText value).length ≤ 128
      omega
    refine ⟨fun t ht => ?_, List.pairwise_pair.2 fun font => Or.inr (Or.inl ?_)⟩
    · rcases List.mem_pair.1 ht with rfl | rfl
      · exact hlabel
      · exact hvalue
    · show 2 + 8 * (chars "UTC_offset:").length ≤ 98
      decide

/-! ### the status pages -/

theorem nameOf_short {n : Nat} {names : List (UInt8 × String)} (h : ∀ p ∈ names, ShortText n (chars p.2))
    (k : UInt8) : ShortText n (nameOf names k) := by
  induction names with
  | nil => exact ⟨Nat.zero_le n, List.not_mem_nil⟩
  | cons p names ih =>
    unfold nameOf
    rw [List.lookup_cons]
    by_cases hk : (k == p.1) = true
    · rw [hk]
      exact h p List.mem_cons_self
    · rw [Bool.eq_false_of_not_eq_true hk]
      exact ih fun q hq => h q (List.mem_cons_of_mem p hq)

theorem resolutionNames_short : ∀ p ∈ resolutionNames, ShortText 9 (chars p.2) := by decide +kernel
theorem rateNames_short : ∀ p ∈ rateNames, ShortText 4 (chars p.2) := by decide +kernel
theorem formatNames_short : ∀ s ∈ formatNames, ShortText 16 (chars s) := by decide +kernel

theorem detectedText_short (reg83 reg84 : UInt8) : ShortText 16 (detectedText reg83 reg84) := by
  have hscan : ShortText 1 (chars (if reg83 &&& 0x10 ≠ 0 then "p" else "i")) := by
    split_ifs <;> decide
  have hname := nameOf_short resolutionNames_short (reg83 &&& 0x0f)
  have hrate := nameOf_short rateNames_short (reg84 &&& 0x0f)
  unfold detectedText
  by_cases hfound : reg83 &&& 0x0f ≠ 0x0f
  · rw [if_pos hfound]
    exact (hname.append (hscan.append hrate)).mono (by decide)
  · rw [if_neg hfound, List.append_nil]
    exact hname.mono (by decide)

theorem videoFormatText_short (d : Dev) (env : StatusEnv) : ShortText 16 (videoFormatText d env) := by
  have hempty : ShortText 16 [] := by decide
  have hname : ∀ k, ShortText 16 (chars (formatNames.getD k "")) := by
    intro k
    by_cases hk : k < formatNames.length
    · rw [List.getD_eq_getElem _ _ hk]
      exact formatNames_short _ (List.getElem_mem hk)
    · rw [List.getD_eq_default _ _ (Nat.le_of_not_lt hk)]
      exact hempty
  unfold videoFormatText
  dsimp only
  split_ifs
  · exact hempty
  · exact hname _
  · exact detectedText_short env.reg83 env.reg84
  · exact hempty

theorem ethernetText_short (env : StatusEnv) : ShortText 16 (ethernetText env) := by
  unfold ethernetText
  split_ifs <;> decide

theorem errorText_short (d : Dev) : ShortText 16 (errorText d) := by
  unfold errorText
  split_ifs <;> decide

theorem statusTexts_fits (d : Dev) (env : StatusEnv) (which : Nat) :
    PageFits (statusTexts d env which) := by
  unfold statusTexts
  split
  · exact PageFits.status (videoFormatText_short d env)
  · exact PageFits.line (by decide) (by decide)
  · exact PageFits.status (ethernetText_short env)
  · exact PageFits.status (errorText_short d)
  · exact PageFits.nil

theorem synchTexts_fits (which : Nat) : PageFits (synchTexts which) := by
  unfold synchTexts
  split
  · exact PageFits.line (by decide) (by decide)
  · exact PageFits.line (by decide) (by decide)
  · exact PageFits.nil

theorem choiceTexts_fits : PageFits choiceTexts := PageFits.line (by decide) (by decide)

/-! ### the version page -/

theorem versionText_short (bytes : List UInt8) : ShortText (2 * bytes.length) (versionText bytes) := by
  induction bytes with
  | nil => exact ⟨le_rfl, List.not_mem_nil⟩
  | cons b bytes ih =>
    have hsum : 2 + 2 * bytes.length = 2 * (b :: bytes).length := by
      rw [List.length_cons]
      omega
    unfold versionText
    rw [List.flatMap_cons, ← hsum]
    exact (hexText_short b).append ih

theorem hwText_short : ∀ hw : UInt8, ShortText 3 (hwText hw) := by
  have hall : ∀ k < 256, (0 : UInt8) ∉ hwText (UInt8.ofNat k) := by decide +kernel
  intro hw
  have h := hall hw.toNat hw.toNat_lt
  rw [UInt8.ofNat_toNat] at h
  exact ⟨le_rfl, h⟩

theorem versionTexts_fits (d : Dev) :
    PageFits ((versionTexts d).mapIdx fun i text => pageLine (UInt8.ofNat (i + 1)) text) := by
  have hsw : ShortText 16 (chars "SW:" ++ versionText (List.ofFn getSw)) := by decide
  have hhw : ShortText 16 (chars "HW:V" ++ hwText d.hw) :=
    ((show ShortText 4 (chars "HW:V") by decide).append (hwText_short d.hw)).mono (by decide)
  have hfw : ShortText 16 (chars "FW:" ++ versionText ((getFw d).getD [])) := by
    have hlabel : ShortText 3 (chars "FW:") := by decide
    cases hversion : getFw d with
    | none => exact (hlabel.append (versionText_short [])).mono (by decide)
    | some fw =>
      have hlen := getFw_length hversion
      exact (hlabel.append (versionText_short fw)).mono (by omega)
  have htop : ∀ (y : UInt8) (text : List UInt8) (font : OledFont),
      ((pageLine y text).patch font).box.top = (y + 1).toNat ∧
        ((pageLine y text).patch font).box.height = 1 := fun _ _ _ => ⟨rfl, rfl⟩
  show PageFits [pageLine 1 _, pageLine 2 _, pageLine 3 _]
  refine ⟨fun t ht => ?_, ?_⟩
  · rcases List.mem_cons.1 ht with rfl | ht
    · exact pageLine_fits (by decide) hsw.length hsw.nonzero
    · rcases List.mem_pair.1 ht with rfl | rfl
      · exact pageLine_fits (by decide) hhw.length hhw.nonzero
      · exact pageLine_fits (by decide) hfw.length hfw.nonzero
  · have hapart : ∀ {y z : UInt8} (s t : List UInt8), (y + 1).toNat + 1 ≤ (z + 1).toNat →
        ∀ font, ((pageLine y s).patch font).box.Apart ((pageLine z t).patch font).box :=
      fun _ _ h _ => Or.inl (Or.inl h)
    refine List.pairwise_cons.2 ⟨fun t ht => ?_, List.pairwise_pair.2 (hapart _ _ (by decide))⟩
    rcases List.mem_pair.1 ht with rfl | rfl
    · exact hapart _ _ (by decide)
    · exact hapart _ _ (by decide)

theorem systemTexts_fits (d : Dev) (which : Nat) : PageFits (systemTexts d which) := by
  unfold systemTexts
  split
  · exact versionTexts_fits d
  · exact PageFits.line (by decide) (by decide)
  · exact PageFits.nil

/-! ## what the callbacks leave on the panel -/

/-- calls that leave no command half sent -/
def Drawable (calls : List ScreenCall) : Prop :=
  ∀ font, Complete (calls.flatMap (ScreenCall.bytes font))

theorem Drawable.nil : Drawable [] := fun _ _ hp => hp

theorem Drawable.append {a b : List ScreenCall} (ha : Drawable a) (hb : Drawable b) :
    Drawable (a ++ b) := by
  intro font
  rw [List.flatMap_append]
  exact (ha font).append (hb font)

theorem Drawable.clear {calls : List ScreenCall} (h : Drawable calls) : Drawable (.clear :: calls) :=
  fun font => paints_clear.complete.append (h font)

theorem Drawable.contrast (level : UInt8) : Drawable [.contrast level] :=
  fun _ => (paints_contrast level).complete

theorem PageFits.drawable {texts : List Text} (h : PageFits texts) : Drawable (drawTexts texts) :=
  fun font => (paints_page font (drawTexts_draws h.fits)).complete

theorem PageFits.page {texts : List Text} (h : PageFits texts) (font : OledFont) {p : Panel}
    (hp : p.contrastNext = false) : ShowsPage font
      (run Panel.byte p ((.clear :: drawTexts texts).flatMap (ScreenCall.bytes font))).ram texts :=
  (page_shown font (drawTexts_draws h.fits) h.apart hp).2

theorem message_fits {y : UInt8} (hy : (y + 1).toNat < 8) {s : String} (h : ShortText 16 (chars s)) :
    PageFits [pageMessage y s] := PageFits.line hy h

/-- what a page is drawn by: anything, and at last the texts on a cleared panel -/
def PageCalls (calls : List ScreenCall) (texts : List Text) : Prop :=
  PageFits texts ∧ ∃ before, Drawable before ∧ calls = before ++ .clear :: drawTexts texts

theorem PageFits.calls {texts : List Text} (h : PageFits texts) :
    PageCalls (.clear :: drawTexts texts) texts := ⟨h, [], Drawable.nil, rfl⟩

theorem PageCalls.drawable {calls : List ScreenCall} {texts : List Text} (h : PageCalls calls texts) :
    Drawable calls := by
  obtain ⟨hfits, before, hbefore, rfl⟩ := h
  exact hbefore.append hfits.drawable.clear

theorem PageCalls.page {calls : List ScreenCall} {texts : List Text} (h : PageCalls calls texts)
    (font : OledFont) {p : Panel} (hp : p.contrastNext = false) :
    ShowsPage font (run Panel.byte p (calls.flatMap (ScreenCall.bytes font))).ram texts := by
  obtain ⟨hfits, before, hbefore, rfl⟩ := h
  rw [List.flatMap_append, run_append]
  exact hfits.page font (hbefore font p hp)

theorem selectCalls_page {d : Dev} {g : Group} {which : Nat} (h : ¬ NotOperable d g which) :
    PageCalls (selectCalls d g which) choiceTexts := by
  have hsend : PageFits [pageMessage menuY "TX Data To FPGA"] := message_fits (by decide) (by decide)
  have hlevel : Drawable (if g = .configDisplayBrightness then
      [.contrast (if which = 0 then 0xff else 0x0f)] else []) := by
    split
    · exact Drawable.contrast _
    · exact Drawable.nil
  refine ⟨choiceTexts_fits, _, (hsend.drawable.append hlevel).clear, ?_⟩
  unfold selectCalls
  rw [if_neg h]
  rfl

/-- a render callback draws its page, or nothing -/
theorem callback_draws (d : Dev) (env : StatusEnv) {f : Callback} {column : Nat} {shown : UInt8}
    (hshown : ∀ e i, fieldOf (f, column) = some ⟨e, i⟩ → shown = d.arr e.arr i) :
    (∀ texts, pageTexts d env shown f column = some texts →
      PageCalls (callbackCalls d env f column) texts) ∧ Drawable (callbackCalls d env f column) := by
  have hpage : ∀ {calls : List ScreenCall} {texts : List Text}, PageCalls calls texts →
      (∀ texts', some texts = some texts' → PageCalls calls texts') ∧ Drawable calls :=
    fun h => ⟨fun _ he => Option.some.inj he ▸ h, h.drawable⟩
  have heditor : (∀ texts, (fieldOf (f, column)).map (fun p => editorTexts p.1 shown) = some texts →
      PageCalls (editorCalls d f column) texts) ∧ Drawable (editorCalls d f column) := by
    unfold editorCalls
    cases hfield : fieldOf (f, column) with
    | none => exact ⟨nofun, PageFits.nil.calls.drawable⟩
    | some p =>
      obtain ⟨e, i⟩ := p
      rw [hshown e i hfield]
      exact hpage (editorTexts_fits e (d.arr e.arr i)).calls
  cases f with
  | select g =>
    by_cases hop : NotOperable d g column
    · have hnone : selectCalls d g column = [] := if_pos hop
      refine ⟨fun texts ht => ?_, ?_⟩
      · have hp : pageTexts d env shown (.select g) column = none := if_pos hop
        rw [hp] at ht
        cases ht
      · show Drawable (selectCalls d g column)
        rw [hnone]
        exact Drawable.nil
    · have hp : pageTexts d env shown (.select g) column = some choiceTexts := if_neg hop
      rw [hp]
      exact hpage (selectCalls_page hop)
  | networkIp => exact heditor
  | networkMac => exact heditor
  | gps => exact heditor
  | systemUniversal => exact hpage (systemTexts_fits d column).calls
  | statusPrint => exact hpage (statusTexts_fits d env column).calls
  | statusSynchPrint => exact hpage (synchTexts_fits column).calls
  | exitAction => exact ⟨nofun, Drawable.nil⟩
  | exit2MainMenu => exact ⟨nofun, Drawable.nil⟩

/-! ## keys on a page -/

theorem editorButton_drawable (e : Editor) (v : Statics) (role : Role) :
    Drawable (editorButtonCalls e v role) := by
  have hsave : PageFits [pageMessage menuY "Save To Flash..."] := message_fits (by decide) (by decide)
  have hfirst : PageFits [pageMessage menuY "  Save To Flash"] := message_fits (by decide) (by decide)
  have hsecond : PageFits [pageMessage (menuY + 1) "The key to exit"] :=
    message_fits (by decide) (by decide)
  cases role with
  | up => exact (editorTexts_fits e _).drawable.clear
  | down => exact (editorTexts_fits e _).drawable.clear
  | cancel => exact Drawable.nil.clear
  | confirm =>
    unfold editorButtonCalls
    dsimp only
    split
    · exact (hsave.drawable.append (hfirst.drawable.append hsecond.drawable).clear).clear
    · exact Drawable.nil.clear

theorem button_drawable (s : EditState) (f : Callback) (column : Nat) (role : Role) :
    Drawable (buttonCalls s f column role) := by
  have heditor : ∀ o : Option Field, Drawable (fieldCalls s role o) := by
    intro o
    cases o with
    | none => exact Drawable.nil
    | some p => exact editorButton_drawable _ _ _
  cases f with
  | select g =>
    unfold buttonCalls
    dsimp only
    split
    · exact Drawable.nil
    · exact Drawable.nil.clear
  | networkIp => exact heditor (fieldOf (.networkIp, column))
  | networkMac => exact heditor (fieldOf (.networkMac, column))
  | gps => exact heditor (fieldOf (.gps, column))
  | statusSynchPrint =>
    have hsynch := (synchTexts_fits column).drawable.clear
    cases role with
    | up => exact hsynch
    | down => exact hsynch
    | confirm => exact Drawable.nil
    | cancel => exact Drawable.nil
  | systemUniversal => exact Drawable.nil
  | statusPrint => exact Drawable.nil
  | exitAction => exact Drawable.nil
  | exit2MainMenu => exact Drawable.nil

/-- an arrow key in an editor draws the new value -/
theorem editorButton_page {s : EditState} {f : Callback} {column : Nat} {e : Editor}
    {i : Fin e.arr.num} (hfield : fieldOf (f, column) = some ⟨e, i⟩)
    (hopen : s.openField = fieldOf (f, column)) {role : Role} (hrole : role = .up ∨ role = .down) :
    PageCalls (fieldCalls s role (fieldOf (f, column))) (editorTexts e (s.press role).shown) := by
  rw [hfield] at hopen
  rw [press_some hopen, hfield]
  rcases hrole with rfl | rfl
  · exact (editorTexts_fits e _).calls
  · exact (editorTexts_fits e _).calls

/-- a key that leaves the page open draws it again, or there is no page -/
theorem button_draws {s : EditState} {f : Callback} {column : Nat} {role : Role} {m : MenuNav}
    (hopen : s.openField = fieldOf (f, column)) (hb : btnHandleCallback m f role = .ok (false, m))
    (d : Dev) (env : StatusEnv) {texts : List Text}
    (ht : pageTexts d env (s.press role).shown f column = some texts) :
    PageCalls (buttonCalls s f column role) texts := by
  have heditor : (fieldOf (f, column)).map (fun p => editorTexts p.1 (s.press role).shown) = some texts →
      role = .up ∨ role = .down →
      PageCalls (fieldCalls s role (fieldOf (f, column))) texts := by
    intro hmap hrole
    obtain ⟨⟨e, i⟩, hfield, rfl⟩ := Option.map_eq_some_iff.1 hmap
    exact editorButton_page hfield hopen hrole
  cases f with
  | select g => cases role <;> cases hb
  | systemUniversal => cases role <;> cases hb
  | statusPrint => cases role <;> cases hb
  | exitAction => cases ht
  | exit2MainMenu => cases ht
  | networkIp =>
    cases role with
    | up => exact heditor ht (Or.inl rfl)
    | down => exact heditor ht (Or.inr rfl)
    | confirm => cases hb
    | cancel => cases hb
  | networkMac =>
    cases role with
    | up => exact heditor ht (Or.inl rfl)
    | down => exact heditor ht (Or.inr rfl)
    | confirm => cases hb
    | cancel => cases hb
  | gps =>
    cases role with
    | up => exact heditor ht (Or.inl rfl)
    | down => exact heditor ht (Or.inr rfl)
    | confirm => cases hb
    | cancel => cases hb
  | statusSynchPrint =>
    have htexts : synchTexts column = texts := Option.some.inj ht
    rw [← htexts]
    cases role with
    | up => exact (synchTexts_fits column).calls
    | down => exact (synchTexts_fits column).calls
    | confirm => cases hb
    | cancel => cases hb

end MenuFirmware
