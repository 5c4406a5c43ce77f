import CarbonMessaging.AdminListings
import CarbonMessaging.ConsoleOutcome
import CarbonMessaging.OptionMarkup

/-! The queues offered for re-routing dead letters. The page joins the names with a separator
behind each of them and cuts the last one off; the script trims what arrives, splits it, and puts
the names into the markup of a `select` element. -/

namespace CarbonMessaging.RerouteDialog

open JavaLang ConsoleOutcome OptionMarkup

-- `queue_list_retrieve_ajaxprocessor.jsp`

def DEAD_LETTER_QUEUE_NAME : Str := "DeadLetterChannel".toList

/-- One round of the loop; `none` is the NullPointerException of a queue without a name. -/
def appendName (queueListString : Str) (queue : AndesAdmin.Queue) : Option Str :=
  queue.queueName.map fun name =>
    if name = DEAD_LETTER_QUEUE_NAME then queueListString
    else queueListString ++ name ++ "#".toList

/-- The page from its call of the stub on: the text that it prints, `none` when it does not
complete. The stub may answer null, which no branch expects, and only its declared fault is
caught. -/
def queue_list_retrieve (getAllQueues : Except Fault (Option (List AndesAdmin.Queue))) :
    Option Str :=
  let queueListString :=
    match getAllQueues with
    | .ok queueList => do
      let queueListString ← (← queueList).foldlM appendName []
      substringTo queueListString 0 (queueListString.length - 1)
    | .error (.brokerManagerAdminException _) => some []
    | .error .other => none
  queueListString.map fun queueListString =>
    List.replicate 9 '\n' ++ queueListString ++ ['\n']

-- `treecontrol.js`

def isWhitespace (c : Char) : Bool :=
  [0x9, 0xA, 0xB, 0xC, 0xD, 0x20, 0xA0, 0x1680, 0x2028, 0x2029, 0x202F, 0x205F, 0x3000,
    0xFEFF].contains c.toNat || (decide (0x2000 ≤ c.toNat) && decide (c.toNat ≤ 0x200A))

def jQueryTrim (s : Str) : Str := (s.dropWhile isWhitespace).rdropWhile isWhitespace

/-- How a character of a page in ISO-8859-1 arrives in the script. A character that the charset
lacks arrives as another one, but not as the separator and not as white space. -/
structure PageCharset where
  carried : Char → Char
  carried_ascii : ∀ c, c.toNat < 128 → carried c = c
  carried_separator : ∀ c, carried c = '#' → c = '#'
  carried_whitespace : ∀ c, isWhitespace (carried c) = true → isWhitespace c = true

variable (charset : PageCharset) (references : CharacterReferences)

/-- The markup of the dialog, `none` when the request fails and no dialog is shown. -/
def doReRouteMessages (responseText : Option Str) : Option Str :=
  responseText.map fun responseText =>
    selectElement ((jQueryTrim (responseText.map charset.carried)).splitOn '#')

def dialog (getAllQueues : Except Fault (Option (List AndesAdmin.Queue))) :
    Option (List SelectOption) :=
  (doReRouteMessages charset (queue_list_retrieve getAllQueues)).map (readOptions references)

/-- The test by which `queue_details.jsp` leaves the dead letter queues out. -/
def isTarget (name : Str) : Bool := !contains name "DeadLetterChannel".toList

def OffersTargets (names : List Str) (dialog : Option (List SelectOption)) : Prop :=
  ∃ targets : List Str, dialog = some (targets.map fun target => ⟨target, target⟩) ∧
    targets.Nodup ∧ targets.Sublist names ∧ [] ∉ targets ∧
    ∀ name, name ∈ targets ↔ name ∈ names ∧ isTarget name = true

def Plain (name : Str) : Prop := name ≠ [] ∧ ∀ c ∈ name, c ≠ '#' ∧ isWhitespace c = false

instance (name : Str) : Decidable (Plain name) :=
  decidable_of_iff (name ≠ [] ∧ name.all (fun c => c != '#' && !isWhitespace c) = true) (by
    simp [Plain])

/-- The stub's answer, where null stands for no queue at all. -/
def Answers (answer : Option (List AndesAdmin.Queue)) (names : List Str) : Prop :=
  (answer.getD []).map (·.queueName) = names.map some

def kept (names : List Str) : List Str := names.filter fun name => name ≠ DEAD_LETTER_QUEUE_NAME

theorem appendName_loop {queues : List AndesAdmin.Queue} {names : List Str}
    (h : queues.map (·.queueName) = names.map some) (queueListString : Str) :
    queues.foldlM appendName queueListString =
      some (queueListString ++ (kept names).flatMap (· ++ ['#'])) := by
  induction queues generalizing names queueListString with
  | nil =>
    obtain rfl : names = [] := by simpa using h.symm
    simp [kept]
  | cons queue queues ih =>
    cases names with
    | nil => simp at h
    | cons name names =>
      rw [List.map_cons, List.map_cons, List.cons.injEq] at h
      rw [List.foldlM_cons, appendName, h.1, Option.map_some, Option.bind_eq_bind,
        Option.bind_some, ih h.2]
      by_cases hdead : name = DEAD_LETTER_QUEUE_NAME
      · simp [kept, hdead]
      · simp [kept, hdead]

theorem flatMap_separator {c : Char} {parts : List Str} (h : parts ≠ []) :
    parts.flatMap (· ++ [c]) = [c].intercalate parts ++ [c] := by
  induction parts with
  | nil => exact absurd rfl h
  | cons part parts ih =>
    cases parts with
    | nil => simp
    | cons next parts =>
      rw [List.flatMap_cons, ih (List.cons_ne_nil _ _), List.intercalate_cons_cons,
        List.append_assoc, List.append_assoc, List.append_assoc]

theorem substringTo_append_single (s : Str) (c : Char) :
    substringTo (s ++ [c]) 0 ((s ++ [c]).length - 1) = some s := by
  have hlength : ((s ++ [c]).length : Int) - 1 = s.length := by simp
  rw [hlength, substringTo_start (Int.natCast_nonneg _) (by simp), Int.toNat_natCast,
    List.take_left]

theorem queue_list_retrieve_eq {answer : Option (List AndesAdmin.Queue)} {names : List Str}
    (hanswer : Answers answer names) : queue_list_retrieve (.ok answer) =
      if kept names = [] then none
      else some (List.replicate 9 '\n' ++ ['#'].intercalate (kept names) ++ ['\n']) := by
  cases answer with
  | none =>
    obtain rfl : names = [] := by simpa [Answers] using hanswer.symm
    rfl
  | some queues =>
    have hloop : queues.foldlM appendName [] = some ((kept names).flatMap (· ++ ['#'])) :=
      appendName_loop hanswer []
    simp only [queue_list_retrieve, Option.bind_eq_bind, Option.bind_some, hloop]
    split
    · rename_i hnone
      rw [hnone]
      rfl
    · rename_i hsome
      rw [flatMap_separator hsome, substringTo_append_single, Option.map_some]

theorem jQueryTrim_lines {s : Str} (n : Nat) (h : ∀ c ∈ s, isWhitespace c = false) :
    jQueryTrim (List.replicate n '\n' ++ s ++ ['\n']) = s := by
  have hbreaks : ∀ c ∈ List.replicate n '\n', isWhitespace c = true := by
    intro c hc
    rw [List.eq_of_mem_replicate hc]
    decide
  have hstart : (s ++ ['\n']).dropWhile isWhitespace = if s = [] then [] else s ++ ['\n'] := by
    cases s with
    | nil => rfl
    | cons c s => simp [h c List.mem_cons_self]
  rw [jQueryTrim, List.append_assoc, List.dropWhile_append_of_pos hbreaks, hstart]
  split
  · rename_i hempty
    rw [hempty, List.rdropWhile_nil]
  · rw [List.rdropWhile_concat_pos _ _ _ (by decide), List.rdropWhile_eq_self_iff]
    exact fun hne => by simp [h _ (List.getLast_mem hne)]

def arrived (names : List Str) : List Str := names.map (List.map charset.carried)

theorem map_intercalate_single (f : Char → Char) (c : Char) (parts : List Str) :
    ([c].intercalate parts).map f = [f c].intercalate (parts.map (List.map f)) := by
  induction parts with
  | nil => rfl
  | cons part parts ih =>
    cases parts with
    | nil => simp
    | cons next parts =>
      rw [List.intercalate_cons_cons, List.map_append, List.map_append, ih, List.map_singleton]
      exact List.intercalate_cons_cons.symm

theorem mem_intercalate_single {c d : Char} {parts : List Str}
    (h : d ∈ [c].intercalate parts) : d = c ∨ ∃ part ∈ parts, d ∈ part := by
  induction parts with
  | nil => cases h
  | cons part parts ih =>
    by_cases hlast : parts = []
    · rw [hlast, List.intercalate_singleton] at h
      exact .inr ⟨part, List.mem_cons_self, h⟩
    · rw [List.intercalate_cons_of_ne_nil hlast, List.mem_append, List.mem_append,
        List.mem_singleton] at h
      rcases h with (hpart | hseparator) | hrest
      · exact .inr ⟨part, List.mem_cons_self, hpart⟩
      · exact .inl hseparator
      · obtain hc | ⟨later, hlater, hd⟩ := ih hrest
        · exact .inl hc
        · exact .inr ⟨later, List.mem_cons_of_mem _ hlater, hd⟩

variable {charset}

theorem plain_arrived {names : List Str} (hplain : ∀ name ∈ names, Plain name) :
    ∀ name ∈ arrived charset names, Plain name := by
  intro _ harrived
  obtain ⟨name, hname, rfl⟩ := List.mem_map.1 harrived
  obtain ⟨hne, hchars⟩ := hplain name hname
  refine ⟨by simpa using hne, fun _ hcarried => ?_⟩
  obtain ⟨c, hc, rfl⟩ := List.mem_map.1 hcarried
  obtain ⟨hseparator, hwhitespace⟩ := hchars c hc
  refine ⟨fun h => hseparator (charset.carried_separator c h), ?_⟩
  rw [← Bool.not_eq_true] at hwhitespace ⊢
  exact fun h => hwhitespace (charset.carried_whitespace c h)

theorem doReRouteMessages_eq {names : List Str} (hplain : ∀ name ∈ names, Plain name)
    (hne : names ≠ []) (n : Nat) :
    doReRouteMessages charset
        (some (List.replicate n '\n' ++ ['#'].intercalate names ++ ['\n'])) =
      some (selectElement (arrived charset names)) := by
  have hbreak : charset.carried '\n' = '\n' := charset.carried_ascii _ (by decide)
  have hseparator : charset.carried '#' = '#' := charset.carried_ascii _ (by decide)
  have hplain' : ∀ name ∈ arrived charset names, Plain name := plain_arrived hplain
  have htrim : ∀ c ∈ ['#'].intercalate (arrived charset names), isWhitespace c = false := by
    intro c hc
    rcases mem_intercalate_single hc with rfl | ⟨name, hname, hc⟩
    · decide
    · exact ((hplain' name hname).2 c hc).2
  have hsplit : (['#'].intercalate (arrived charset names)).splitOn '#' = arrived charset names :=
    List.splitOn_intercalate '#' (fun name hname h => ((hplain' name hname).2 '#' h).1 rfl)
      (by simpa [arrived] using hne)
  rw [doReRouteMessages, Option.map_some, List.map_append, List.map_append, List.map_replicate,
    List.map_singleton, hbreak, map_intercalate_single, hseparator]
  have harrived : names.map (List.map charset.carried) = arrived charset names := rfl
  rw [harrived, jQueryTrim_lines n htrim, hsplit]

variable {references}

theorem dialog_eq {answer : Option (List AndesAdmin.Queue)} {names : List Str}
    (hplain : ∀ name ∈ names, Plain name) (hanswer : Answers answer names) :
    dialog charset references (.ok answer) = if kept names = [] then none
      else some ((parts (arrived charset (kept names))).map (readOption references)) := by
  rw [dialog, queue_list_retrieve_eq hanswer]
  split
  · rfl
  · rename_i hsome
    have hkept : ∀ name ∈ kept names, Plain name := fun name h =>
      hplain name (List.mem_of_mem_filter h)
    have hblank : ∀ name ∈ arrived charset (kept names), ' ' ∉ name := fun name hname hmem =>
      absurd ((plain_arrived hkept name hname).2 ' ' hmem).2 (by decide)
    rw [doReRouteMessages_eq hkept hsome 9, Option.map_some, readOptions_selectElement hblank]

theorem options_injective :
    Function.Injective (List.map fun name : Str => SelectOption.mk name name) :=
  List.map_injective_iff.2 fun _ _ h => (SelectOption.mk.inj h).1

theorem targets_sublist_kept (names : List Str) : (names.filter isTarget).Sublist (kept names) := by
  refine List.monotone_filter_right names fun name htarget => ?_
  rw [decide_eq_true_iff]
  rintro rfl
  exact absurd htarget (by decide)

variable (charset references) in
/-- There is a target, a dead letter queue has no tenant's name in front, and the targets differ,
arrive as they are and are read from the markup as they are. -/
structure Offerable (names : List Str) : Prop where
  some_target : ∃ name ∈ names, isTarget name = true
  dead_letter : ∀ name ∈ names, isTarget name = false → name = DEAD_LETTER_QUEUE_NAME
  distinct : (names.filter isTarget).Nodup
  carried : ∀ name ∈ names, isTarget name = true → name.map charset.carried = name
  readable : ∀ name ∈ names, isTarget name = true → Readable references name

theorem kept_eq_targets {names : List Str}
    (h : ∀ name ∈ names, isTarget name = false → name = DEAD_LETTER_QUEUE_NAME) :
    kept names = names.filter isTarget := by
  refine List.filter_congr fun name hname => ?_
  rw [Bool.eq_iff_iff, decide_eq_true_iff]
  constructor
  · intro hne
    by_contra htarget
    exact hne (h name hname (Bool.not_eq_true _ ▸ htarget))
  · rintro htarget rfl
    exact absurd htarget (by decide)

theorem lengths_arrived (names : List Str) :
    (arrived charset names).map List.length = names.map List.length := by
  rw [arrived, List.map_map]
  exact List.map_congr_left fun name _ => List.length_map charset.carried

theorem offerable_of_offers {names targets : List Str}
    (hread : (parts (arrived charset (kept names))).map (readOption references) =
      targets.map fun target => ⟨target, target⟩)
    (hne : kept names ≠ []) (hnodup : targets.Nodup) (hsub : targets.Sublist names)
    (htargets : ∀ name ∈ targets, isTarget name = true) :
    Offerable charset references names := by
  have hlegal : targets.Sublist (names.filter isTarget) :=
    List.filter_eq_self.2 htargets ▸ hsub.filter isTarget
  have hlength : targets.length = (kept names).length := by
    have hlengths := congrArg List.length hread
    rw [List.length_map, List.length_map, length_parts, arrived, List.length_map] at hlengths
    exact hlengths.symm
  -- the targets are neither more than the names kept nor fewer
  have hkept : names.filter isTarget = kept names :=
    (targets_sublist_kept names).eq_of_length_le (hlength ▸ hlegal.length_le)
  have hall : targets = names.filter isTarget :=
    hlegal.eq_of_length_le (by rw [hkept, hlength])
  rw [hall, ← hkept] at hread
  obtain ⟨hcarried, hreadable⟩ := (read_parts_iff (lengths_arrived _)).1 hread
  have hsame := hcarried.trans (List.map_id _).symm
  refine ⟨?_, fun name hname hdead => ?_, hall ▸ hnodup, fun name hname htarget => ?_,
    fun name hname htarget => hreadable name (List.mem_filter.2 ⟨hname, htarget⟩)⟩
  · rw [← hkept] at hne
    obtain ⟨name, hname⟩ := List.exists_mem_of_ne_nil _ hne
    exact ⟨name, List.mem_filter.1 hname⟩
  · by_contra hother
    have hmem : name ∈ kept names := List.mem_filter.2 ⟨hname, decide_eq_true hother⟩
    rw [← hkept, List.mem_filter, hdead] at hmem
    exact absurd hmem.2 Bool.false_ne_true
  · exact List.map_inj_left.1 hsame name (List.mem_filter.2 ⟨hname, htarget⟩)

variable (charset references) in
/-- The dialog offers the targets just where one condition holds of the names. A list without a
target ends in an exception of the page, and a tenant's dead letter queue is offered. -/
theorem offersTargets_iff (names : List Str) (answer : Option (List AndesAdmin.Queue))
    (hplain : ∀ name ∈ names, Plain name) (hanswer : Answers answer names) :
    OffersTargets names (dialog charset references (.ok answer)) ↔
      Offerable charset references names := by
  rw [dialog_eq hplain hanswer]
  constructor
  · rintro ⟨targets, hdialog, hnodup, hsub, -, hmem⟩
    split at hdialog
    · cases hdialog
    · rename_i hne
      exact offerable_of_offers (Option.some.inj hdialog) hne hnodup hsub fun name hname =>
        ((hmem name).1 hname).2
  · intro h
    have hne : names.filter isTarget ≠ [] := by
      obtain ⟨name, hname⟩ := h.some_target
      exact List.ne_nil_of_mem (List.mem_filter.2 hname)
    have harrived : arrived charset (names.filter isTarget) = names.filter isTarget := by
      refine (List.map_congr_left fun name hname => ?_).trans (List.map_id _)
      exact h.carried name (List.mem_filter.1 hname).1 (List.mem_filter.1 hname).2
    have hread := (read_parts_iff (lengths_arrived _)).2 ⟨harrived, fun name hname =>
      h.readable name (List.mem_filter.1 hname).1 (List.mem_filter.1 hname).2⟩
    rw [kept_eq_targets h.dead_letter, if_neg hne, hread]
    refine ⟨_, rfl, h.distinct, List.filter_sublist, fun hempty => ?_, fun name => List.mem_filter⟩
    exact (hplain [] (List.mem_of_mem_filter hempty)).1 rfl

/-- The charset of the page, where what it lacks becomes a question mark. -/
def latin1 : PageCharset where
  carried c := if c.toNat < 256 then c else '?'
  carried_ascii c h := if_pos (by omega)
  carried_separator c h := by
    split at h
    · exact h
    · cases h
  carried_whitespace c h := by
    split at h
    · exact h
    · cases h

def noReferences : CharacterReferences where
  valueOf s := s
  textOf s := s
  valueOf_length _ := le_rfl
  textOf_length _ := .inl rfl
  valueOf_plain _ _ _ := rfl
  textOf_plain _ _ _ := rfl

def named (name : Str) : AndesAdmin.Queue := ⟨some name, 0, 0, 0⟩

theorem offersTargets_orders :
    OffersTargets ["orders".toList, "DeadLetterChannel".toList]
      (dialog latin1 noReferences
        (.ok (some [named "orders".toList, named "DeadLetterChannel".toList]))) :=
  (offersTargets_iff latin1 noReferences ["orders".toList, "DeadLetterChannel".toList]
    (some [named "orders".toList, named "DeadLetterChannel".toList]) (by decide) rfl).2
    { some_target := ⟨_, List.mem_cons_self, by decide⟩
      dead_letter := by decide
      distinct := by decide
      carried := by decide
      readable := fun name hname _ => readable_of_plain (by revert name; simp [NUL]) }

/-- A tenant's dead letter queue is offered, and without a queue there is no dialog at all. -/
theorem tenant_deadLetter_offered :
    ¬OffersTargets ["orders".toList, "foo/DeadLetterChannel".toList]
      (dialog latin1 noReferences
        (.ok (some [named "orders".toList, named "foo/DeadLetterChannel".toList]))) ∧
    ¬OffersTargets [] (dialog latin1 noReferences (.ok (some []))) := by
  constructor
  · rintro ⟨targets, hdialog, -, -, -, htargets⟩
    obtain rfl : ["orders".toList, "foo/DeadLetterChannel".toList] = targets :=
      options_injective (Option.some.inj hdialog)
    obtain ⟨-, htarget⟩ := (htargets "foo/DeadLetterChannel".toList).1 (by simp)
    exact absurd htarget (by decide)
  · rintro ⟨targets, hdialog, -⟩
    cases hdialog

end CarbonMessaging.RerouteDialog
