import MenuFirmware.Gps.Uart4
import MenuFirmware.Gps.Validity

/-!
# What a sentence leaves in `Save_Data` (`uart4.c`)

The line is given to the parser without an end: its searches may run on into what an earlier line,
or nobody, has left in the array.

* `SelfContained`       a condition on the text of a sentence;
* `parse_left_eq`       then what it leaves does not depend on what is behind it, nor on `usefullBuffer`;
* `parse_left_open`     a search that runs off the end finds something too long, or nothing;
* `pollintGps_line`     every line of a chunk is parsed over what the ones before it have left;
* `onlySentence_iff`    over all chunks, what a sentence leaves depends on the sentence and the
                        former `Save_Data` only, iff it is self-contained.
-/

set_option linter.unusedSectionVars false
set_option linter.unusedVariables false

namespace MenuFirmware
open Runs Delimited

/-! ## what a parse leaves -/

/-- `Save_Data` but for the two flags in front -/
def values (s : SaveData) : Fin 50 → UInt8 := fun i => s ⟨i.1 + 2, Nat.add_lt_add_right i.2 2⟩

def outcome (p : Option GpsParse) : Option (Fin 50 → UInt8) := p.map fun q => values q.save

/-- the first nine searches end inside the text, and the status does not come from `usefullBuffer`;
or the behaviour is undefined whatever follows: a NUL stands before the first comma, or a field
leaves the object it is copied into -/
def SelfContained (text : List UInt8) : Prop :=
  (find comma 0 text = none ∧ (0 : UInt8) ∈ text) ∨
    ∃ k, find comma 0 text = some k ∧
      (¬ AllReach (List.range' 1 9) (fields comma 0 9 (text.drop k)) ∨
        Closed comma 0 9 (text.drop k) ∧ StatusFixed (fields comma 0 9 (text.drop k)))

theorem values_eq_iff {s t : SaveData} (h : ∀ j : Fin 52, j ≠ isParseData → j ≠ isUsefull → s j = t j) :
    values s = values t ↔ s isUsefull = t isUsefull := by
  constructor
  · intro hv
    exact congrFun hv ⟨49, by decide⟩
  · intro hu
    funext i
    by_cases hi : i.1 = 49
    · have hidx : (⟨i.1 + 2, Nat.add_lt_add_right i.2 2⟩ : Fin 52) = isUsefull :=
        Fin.ext (congrArg (· + 2) hi)
      unfold values
      rw [hidx, hu]
    · refine h _ (fun e => ?_) fun e => ?_
      · have hval : i.1 + 2 = 1 := congrArg Fin.val e
        omega
      · have hval : i.1 + 2 = 51 := congrArg Fin.val e
        omega

/-- two parses of the same fields differ in `isUsefull` only -/
theorem outcome_eq_iff {fs : List (Option (List UInt8))} (hn : NoNul fs)
    (hr : AllReach (List.range' 1 9) fs) {p p' : GpsParse} (hsave : p.save = p'.save) :
    outcome (storeFields (List.range' 1 9) fs p) = outcome (storeFields (List.range' 1 9) fs p') ↔
      usefullAfter (List.range' 1 9) fs p.usefull.1 (p.save isUsefull) =
        usefullAfter (List.range' 1 9) fs p'.usefull.1 (p.save isUsefull) := by
  obtain ⟨q, hq⟩ := Option.isSome_iff_exists.1 ((storeFields_isSome_iff hn p).2 hr)
  obtain ⟨q', hq'⟩ := Option.isSome_iff_exists.1 ((storeFields_isSome_iff hn p').2 hr)
  have hothers : ∀ j : Fin 52, j ≠ isParseData → j ≠ isUsefull → q.save j = q'.save j :=
    fun j h1 h2 => storeFields_others hn h1 h2 (congrFun hsave j) hq hq'
  have hu := storeFields_usefull hn hq
  have hu' := storeFields_usefull hn hq'
  rw [hq, hq', ← congrFun hsave isUsefull] at *
  show some (values q.save) = some (values q'.save) ↔ _
  rw [Option.some_inj, values_eq_iff hothers, hu, hu']

/-! ## what is behind the sentence -/

theorem parse_left {text : List UInt8} (hr : isRmc text = true) {k : Nat}
    (hk : find comma 0 text = some k) (left : List UInt8) (p : GpsParse) :
    parseGpsBuffer (text ++ left) p =
      storeFields (List.range' 1 9) (fields comma 0 9 (text.drop k ++ left)) p := by
  obtain ⟨f, r, hf, rfl, rfl⟩ := find_eq_some comma_ne hk
  have hr' := isRmc_append hr left
  rw [List.append_assoc, List.cons_append] at hr' ⊢
  rw [List.drop_left, parseGpsBuffer_comma hf _ p hr', List.cons_append]

/-- no comma: a null pointer is read -/
theorem parse_noComma {mem : List UInt8} (hr : isRmc mem = true) (h : find comma 0 mem = none)
    (p : GpsParse) : parseGpsBuffer mem p = none := by
  unfold parseGpsBuffer
  rw [if_pos hr, h]

/-- where a search runs off the end: the fields before it, and what it and the later ones find -/
theorem allReach_open {sub : List UInt8} {c : UInt8} (h : ¬ Closed comma 0 9 (c :: sub)) :
    ∃ pre m r, 9 = pre.length + (m + 1) ∧ Plain comma 0 r ∧ ∀ left,
      (AllReach (List.range' 1 9) (fields comma 0 9 ((c :: sub) ++ left)) ↔
        AllReach (List.range' 1 pre.length) pre ∧
          AllReach (List.range' (1 + pre.length) (m + 1))
            (fields comma 0 (m + 1) (c :: (r ++ left)))) := by
  obtain ⟨pre, m, r, hlen, hr, heq⟩ := open_split comma_ne h
  have hrange : List.range' 1 9 = List.range' 1 pre.length ++ List.range' (1 + pre.length) (m + 1) := by
    rw [hlen]
    exact (List.range'_append_1 ..).symm
  refine ⟨pre, m, r, hlen, hr, fun left => ?_⟩
  rw [List.cons_append, heq left, hrange]
  exact allFields_append List.length_range' _ _

/-- the later searches find nothing where no comma is behind the text -/
theorem allReach_not_mem {l : List UInt8} (h : comma ∉ l) (is : List Nat) (n : Nat) (c : UInt8) :
    AllReach is (fields comma 0 n (c :: l)) := by
  rw [fields_of_not_mem h]
  exact allFields_replicate_none _ is n

/-- a field that does not reach makes the behaviour undefined whatever follows the text -/
theorem allReach_append {sub : List UInt8} {c : UInt8}
    (h : ¬ AllReach (List.range' 1 9) (fields comma 0 9 (c :: sub))) (left : List UInt8) :
    ¬ AllReach (List.range' 1 9) (fields comma 0 9 ((c :: sub) ++ left)) := by
  by_cases hc : Closed comma 0 9 (c :: sub)
  · rw [fields_append comma_ne hc left]
    exact h
  · obtain ⟨pre, m, r, -, hr, hiff⟩ := allReach_open hc
    have hplain : comma ∉ r ++ [] := by
      rw [List.append_nil]
      exact fun hmem => (hr comma hmem).1 rfl
    have halone := hiff []
    rw [List.append_nil] at halone
    intro hall
    exact h (halone.2 ⟨((hiff left).1 hall).1, allReach_not_mem hplain ..⟩)

/-- **Enough.** -/
theorem parse_left_eq {text : List UInt8} (hr : isRmc text = true) (h : SelfContained text)
    (left left' : List UInt8) {p p' : GpsParse} (hsave : p.save = p'.save) :
    outcome (parseGpsBuffer (text ++ left) p) = outcome (parseGpsBuffer (text ++ left') p') := by
  rcases h with ⟨hk, h0⟩ | ⟨k, hk, h⟩
  · have hnone : ∀ l, find comma 0 (text ++ l) = none := by
      intro l
      rcases find_eq_none hk with hp | ⟨f, r, hf, rfl⟩
      · exact absurd rfl (hp 0 h0).2
      · rw [List.append_assoc, List.cons_append]
        exact find_nul comma_ne hf _
    rw [parse_noComma (isRmc_append hr left) (hnone left),
      parse_noComma (isRmc_append hr left') (hnone left')]
  · rw [parse_left hr hk, parse_left hr hk]
    have hundefined : ∀ l p, ¬ AllReach (List.range' 1 9) (fields comma 0 9 (text.drop k)) →
        storeFields (List.range' 1 9) (fields comma 0 9 (text.drop k ++ l)) p = none := by
      intro l p hno
      obtain ⟨f, r, hf, rfl, rfl⟩ := find_eq_some comma_ne hk
      rw [List.drop_left] at hno ⊢
      exact Option.not_isSome_iff_eq_none.1 fun hs =>
        allReach_append hno l ((storeFields_isSome_iff (noNul_fields _ _) p).1 hs)
    by_cases hreach : AllReach (List.range' 1 9) (fields comma 0 9 (text.drop k))
    · obtain ⟨hclosed, hstatus⟩ := h.resolve_left (not_not.2 hreach)
      rw [fields_append comma_ne hclosed, fields_append comma_ne hclosed]
      refine (outcome_eq_iff (noNul_fields _ _) hreach hsave).2 ?_
      exact (usefullAfter_iff (fields_length ..) hreach).2 hstatus _ _ _
    · rw [hundefined left p hreach, hundefined left' p' hreach]

/-! ## a search that runs off the end -/

/-- something that is too long for every member -/
def junk : List UInt8 := List.replicate 500 0x30

theorem junk_plain : Plain comma 0 junk := by
  intro b hb
  rw [List.eq_of_mem_replicate hb]
  decide

/-- where a search runs off the end, what is behind may be too long -/
theorem parse_left_open {sub : List UInt8} {c : UInt8} (h : ¬ Closed comma 0 9 (c :: sub)) :
    ∃ left, 500 ≤ left.length ∧
      ¬ AllReach (List.range' 1 9) (fields comma 0 9 ((c :: sub) ++ left)) := by
  obtain ⟨pre, m, r, hlen, hr, hiff⟩ := allReach_open h
  have hjunk : junk.length = 500 := List.length_replicate
  have hplain : ∀ f ∈ (r ++ junk) :: List.replicate m junk, Plain comma 0 f := by
    rw [List.forall_mem_cons]
    exact ⟨plain_append.2 ⟨hr, junk_plain⟩, fun f hf => List.eq_of_mem_replicate hf ▸ junk_plain⟩
  have hlong : ∀ f ∈ (r ++ junk) :: List.replicate m junk, 500 ≤ f.length := by
    rw [List.forall_mem_cons]
    refine ⟨?_, fun f hf => ?_⟩
    · rw [List.length_append]
      omega
    · rw [List.eq_of_mem_replicate hf]
      exact Nat.le_of_eq hjunk.symm
  refine ⟨(List.replicate (m + 1) junk).flatMap (· ++ [comma]), ?_, fun hall => ?_⟩
  · rw [List.replicate_succ, List.flatMap_cons, List.length_append, List.length_append]
    omega
  · have hback := ((hiff _).1 hall).2
    -- the search that runs off finds the junk behind what is left of the text, the later ones more of it
    have hjoin : fields comma 0 (m + 1)
        (c :: (r ++ (List.replicate (m + 1) junk).flatMap (· ++ [comma]))) =
        ((r ++ junk) :: List.replicate m junk).map some := by
      have hcount : ((r ++ junk) :: List.replicate m junk).length = m + 1 := by
        rw [List.length_cons, List.length_replicate]
      rw [← fields_join hplain [], hcount, List.append_nil, List.replicate_succ, List.flatMap_cons,
        List.flatMap_cons, List.append_assoc, List.append_assoc, List.append_assoc]
      rfl
    rw [hjoin] at hback
    have hnine : 9 ∈ List.range' (1 + pre.length) (m + 1) := by
      rw [List.mem_range'_1]
      omega
    have hcount : (List.range' (1 + pre.length) (m + 1)).length =
        ((r ++ junk) :: List.replicate m junk).length := by
      rw [List.length_range', List.length_cons, List.length_replicate]
    obtain ⟨f, hf, hreach⟩ := allFields_mem hcount hback hnine
    have hmax : 13 + f.length ≤ 52 := hreach.1 saveUTCDate rfl
    have hmin := hlong f hf
    omega

/-- zeros behind a text end every search in it -/
theorem parse_left_zeros {sub : List UInt8} {c : UInt8}
    (h : AllReach (List.range' 1 9) (fields comma 0 9 (c :: sub))) (n : Nat) :
    AllReach (List.range' 1 9) (fields comma 0 9 ((c :: sub) ++ List.replicate n 0)) := by
  by_cases hc : Closed comma 0 9 (c :: sub)
  · rw [fields_append comma_ne hc]
    exact h
  · obtain ⟨pre, m, r, -, hr, hiff⟩ := allReach_open hc
    have hnot : comma ∉ r ++ List.replicate n 0 := by
      intro hmem
      rcases List.mem_append.1 hmem with hm | hm
      · exact (hr comma hm).1 rfl
      · exact comma_ne (List.eq_of_mem_replicate hm)
    have halone := hiff []
    rw [List.append_nil] at halone
    exact (hiff _).2 ⟨(halone.1 h).1, allReach_not_mem hnot ..⟩

/-- **Needed.** -/
theorem selfContained_of_outcome {text : List UInt8} (hr : isRmc text = true)
    (h : ∀ (left left' : List UInt8) (p p' : GpsParse), 500 ≤ left.length → 500 ≤ left'.length →
      p.save = p'.save →
      outcome (parseGpsBuffer (text ++ left) p) = outcome (parseGpsBuffer (text ++ left') p')) :
    SelfContained text := by
  have hzeros : 500 ≤ (List.replicate 500 (0 : UInt8)).length :=
    Nat.le_of_eq List.length_replicate.symm
  have hisSome : ∀ {a b : Option GpsParse}, outcome a = outcome b → (a.isSome = b.isSome) := by
    intro a b e
    have he := congrArg Option.isSome e
    unfold outcome at he
    rwa [Option.isSome_map, Option.isSome_map] at he
  cases hk : find comma 0 text with
  | none =>
    by_cases h0 : (0 : UInt8) ∈ text
    · exact Or.inl ⟨hk, h0⟩
    · -- with commas behind it, the first comma is found
      have hp : Plain comma 0 text := by
        rcases find_eq_none hk with hp | ⟨f, r, hf, rfl⟩
        · exact hp
        · exact absurd (List.mem_append_right f List.mem_cons_self) h0
      have hcommas : 500 ≤ (List.replicate 500 comma).length :=
        Nat.le_of_eq List.length_replicate.symm
      have he := hisSome (h (List.replicate 500 0) (List.replicate 500 comma) gpsParseInit gpsParseInit
        hzeros hcommas rfl)
      have hnone : find comma 0 (text ++ List.replicate 500 0) = none := find_nul comma_ne hp _
      rw [parse_noComma (isRmc_append hr _) hnone,
        show List.replicate 500 comma = comma :: List.replicate 499 comma from rfl,
        parseGpsBuffer_comma hp _ gpsParseInit (isRmc_append hr _)] at he
      have hsome : (storeFields (List.range' 1 9)
          (fields comma 0 9 (comma :: List.replicate 499 comma)) gpsParseInit).isSome = true := by
        decide +kernel
      rw [hsome] at he
      cases he
  | some k =>
    refine Or.inr ⟨k, hk, ?_⟩
    obtain ⟨f, r, hf, rfl, rfl⟩ := find_eq_some comma_ne hk
    rw [List.drop_left]
    by_cases hreach : AllReach (List.range' 1 9) (fields comma 0 9 (comma :: r))
    · have hparse := parse_left hr hk
      rw [List.drop_left] at hparse
      right
      have hclosed : Closed comma 0 9 (comma :: r) := by
        by_contra hopen
        obtain ⟨left, hleft, hno⟩ := parse_left_open hopen
        have he := hisSome (h left (List.replicate 500 0) gpsParseInit gpsParseInit hleft hzeros
          rfl)
        rw [hparse, hparse, (storeFields_isSome_iff (noNul_fields _ _) gpsParseInit).2
          (parse_left_zeros hreach 500)] at he
        exact hno ((storeFields_isSome_iff (noNul_fields _ _) gpsParseInit).1 he)
      refine ⟨hclosed, (usefullAfter_iff (fields_length ..) hreach).1 fun u u' b => ?_⟩
      let p : GpsParse := ⟨fun _ => b, 0, (u, 0), []⟩
      let p' : GpsParse := ⟨fun _ => b, 0, (u', 0), []⟩
      have he := h (List.replicate 500 0) (List.replicate 500 0) p p' hzeros hzeros rfl
      rw [hparse, hparse, fields_append comma_ne hclosed] at he
      have hsave : p.save = p'.save := rfl
      exact (outcome_eq_iff (noNul_fields _ _) hreach hsave).1 he
    · exact Or.inl hreach

/-! ## a chunk -/

/-- an RMC sentence as it comes, without its end, which fits the array -/
structure RmcLine where
  text : List UInt8
  rmc : isRmc text = true
  noNewline : newline ∉ text
  fits : text.length ≤ 500

/-- nothing, or lines with their ends -/
def WholeLines (chunk : List UInt8) : Prop := chunk = [] ∨ ∃ l, chunk = l ++ [newline]

/-- what the sentence leaves after any lines, on any stack, depends on the former `Save_Data` only -/
def OnlySentence (s : RmcLine) : Prop :=
  ∀ (st st' : GpsStack) (before before' : List UInt8) (p p' q q' : GpsParse),
    WholeLines before → WholeLines before' →
    (pollintGps st before (some p)).parse = some q →
    (pollintGps st' before' (some p')).parse = some q' → q.save = q'.save →
    outcome (pollintGps st (before ++ s.text ++ [newline]) (some p)).parse =
      outcome (pollintGps st' (before' ++ s.text ++ [newline]) (some p')).parse

theorem pollByte_mem_length (st : GpsStack) (s : GpsPoll) (b : UInt8) :
    (pollByte st s b).mem.length = s.mem.length := by
  by_cases hb : b = newline
  · rw [hb, pollByte_newline]
  · rw [pollByte_other st s hb]
    exact List.length_set

theorem pollintGps_mem_length (st : GpsStack) (data : List UInt8) (p : Option GpsParse) :
    500 ≤ (pollintGps st data p).mem.length := by
  have hstep : ∀ (s : GpsPoll) (b : UInt8), 500 ≤ s.mem.length → 500 ≤ (pollByte st s b).mem.length := by
    intro s b hs
    rw [pollByte_mem_length]
    exact hs
  have hinit : 500 ≤ (pollInit st p).mem.length := by
    show 500 ≤ (List.ofFn st.gprmcBuf ++ st.behind).length
    rw [List.length_append, List.length_ofFn]
    exact Nat.le_add_right ..
  exact run_invariant hstep hinit data

theorem pollintGps_wholeLines (st : GpsStack) {chunk : List UInt8} (h : WholeLines chunk)
    (p : Option GpsParse) : (pollintGps st chunk p).gprmcLen = 0 := by
  rcases h with rfl | ⟨l, rfl⟩
  · rfl
  · unfold pollintGps
    rw [run_append, run_cons, pollByte_newline]
    rfl

/-- the bytes of a line, one after the other; `cur` is what has come of it -/
theorem run_line (st : GpsStack) (s : GpsPoll) (cur mem line : List UInt8) (hn : newline ∉ line)
    (hlen : s.gprmcLen = cur.length) (hmem : s.mem = overlay cur mem)
    (hfit : cur.length + line.length ≤ mem.length) :
    (run (pollByte st) s line).mem = overlay (cur ++ line) mem ∧
      (run (pollByte st) s line).calls = s.calls ∧ (run (pollByte st) s line).parse = s.parse := by
  induction line generalizing s cur with
  | nil =>
    rw [List.append_nil]
    exact ⟨hmem, rfl, rfl⟩
  | cons b line ih =>
    have hb : b ≠ newline := fun e => hn (e ▸ List.mem_cons_self)
    have hsnoc : (cur ++ [b]).length = cur.length + 1 := List.length_append
    rw [List.length_cons] at hfit
    have hstep := pollByte_other st s hb
    have hnext := ih (pollByte st s b) (cur ++ [b]) (List.not_mem_of_not_mem_cons hn)
      (by rw [hstep, hsnoc, ← hlen])
      (by rw [hstep, hmem, hlen]; exact overlay_snoc (by omega) b) (by omega)
    rw [List.append_assoc, List.singleton_append] at hnext
    rw [run_cons]
    refine ⟨hnext.1, hnext.2.1.trans ?_, hnext.2.2.trans ?_⟩
    · rw [hstep]
    · rw [hstep]

/-- **A line of a chunk.**  It is parsed over what is in the array. -/
theorem pollintGps_line (st : GpsStack) {before : List UInt8} (h : WholeLines before) (s : RmcLine)
    (p : Option GpsParse) :
    (pollintGps st (before ++ s.text ++ [newline]) p).parse =
      (pollintGps st before p).parse.bind fun q =>
        parseGpsBuffer (s.text ++ (pollintGps st before p).mem.drop s.text.length)
          { q with usefull := st.usefull (pollintGps st before p).calls } := by
  have hbig := pollintGps_mem_length st before p
  have hfits := s.fits
  obtain ⟨hmem, hcalls, hparse⟩ := run_line st (pollintGps st before p) []
    (pollintGps st before p).mem s.text s.noNewline (pollintGps_wholeLines st h p)
    (overlay_nil _).symm (by rw [List.length_nil]; omega)
  have hrun : pollintGps st (before ++ s.text ++ [newline]) p =
      pollByte st (run (pollByte st) (pollintGps st before p) s.text) newline := by
    unfold pollintGps
    rw [run_append, run_append]
    rfl
  rw [hrun, pollByte_newline]
  show parseCall st (run (pollByte st) (pollintGps st before p) s.text) = _
  unfold parseCall
  rw [hmem, hcalls, hparse]
  rfl

/-- a stack that holds a given memory -/
def stackOf (mem : List UInt8) (u : UInt8 × UInt8) : GpsStack :=
  ⟨fun i => mem.getD i.1 0, mem.drop 500, fun _ => u⟩

theorem stackOf_mem {mem : List UInt8} (h : 500 ≤ mem.length) (u : UInt8 × UInt8) :
    List.ofFn (stackOf mem u).gprmcBuf ++ (stackOf mem u).behind = mem := by
  have htake : List.ofFn (stackOf mem u).gprmcBuf = mem.take 500 := by
    apply List.ext_getElem
    · rw [List.length_ofFn, List.length_take]
      omega
    · intro i h1 h2
      rw [List.getElem_ofFn, List.getElem_take]
      exact List.getD_eq_getElem mem 0 _
  rw [htake]
  exact List.take_append_drop 500 mem

/-- **What a sentence leaves.**  It depends on the sentence and the former `Save_Data` only, not on
what the array or `usefullBuffer` held, iff the sentence is self-contained. -/
theorem onlySentence_iff (s : RmcLine) : OnlySentence s ↔ SelfContained s.text := by
  constructor
  · intro h
    refine selfContained_of_outcome s.rmc fun left left' p p' hleft hleft' hsave => ?_
    -- the sentence is the first line of a chunk, and the stack holds what is to be behind it
    have hline : ∀ (left : List UInt8) (p : GpsParse), 500 ≤ left.length →
        (pollintGps (stackOf (s.text ++ left) p.usefull) ([] ++ s.text ++ [newline]) (some p)).parse =
          parseGpsBuffer (s.text ++ left) p := by
      intro left p hleft
      have hsize : 500 ≤ (s.text ++ left).length := by
        rw [List.length_append]
        omega
      have hmem : (pollintGps (stackOf (s.text ++ left) p.usefull) [] (some p)).mem =
          s.text ++ left := stackOf_mem hsize p.usefull
      rw [pollintGps_line _ (Or.inl rfl), hmem, List.drop_left]
      rfl
    have hout := h (stackOf (s.text ++ left) p.usefull) (stackOf (s.text ++ left') p'.usefull) [] []
      p p' p p' (Or.inl rfl) (Or.inl rfl) rfl rfl hsave
    rwa [hline left p hleft, hline left' p' hleft'] at hout
  · intro h st st' before before' p p' q q' hw hw' hq hq' hsave
    rw [pollintGps_line st hw, pollintGps_line st' hw', hq, hq']
    exact parse_left_eq s.rmc h _ _ hsave

/-- the sentence `$GPRMC,120000,,,,,,,,130718,,`, with an empty status -/
def noStatus : RmcLine where
  text := gprmc ++ [0x2C, 0x31, 0x32, 0x30, 0x30, 0x30, 0x30, 0x2C, 0x2C, 0x2C, 0x2C, 0x2C, 0x2C, 0x2C,
    0x2C, 0x31, 0x33, 0x30, 0x37, 0x31, 0x38, 0x2C, 0x2C]
  rmc := isRmc_append gprmc_rmc _
  noNewline := by decide
  fits := by decide

/-- it is valid or not as `usefullBuffer` happens to hold -/
theorem onlySentence_noStatus : ¬ OnlySentence noStatus := by
  intro h
  have hout := h (stackOf [] (0x41, 0)) (stackOf [] (0x56, 0)) [] [] gpsParseInit
    gpsParseInit _ _ (Or.inl rfl) (Or.inl rfl) rfl rfl rfl
  have hvalid := congrArg (Option.map (· ⟨49, by decide⟩)) hout
  revert hvalid
  decide +kernel

end MenuFirmware
