import CarbonMessaging.JavaLang

/-! The options of a `select` element as a browser reads them from markup that a script has put
together without escaping. An option starts where its start tag stands, its value ends at the next
quotation mark, and its text at the next tag. -/

namespace CarbonMessaging.OptionMarkup

open JavaLang

structure SelectOption where
  value : Str
  text : Str
  deriving DecidableEq

def NUL : Char := Char.ofNat 0

/-- What a browser makes of the characters of an attribute's value and of a text. A reference after
`&` is longer than what it stands for, and `NUL` is replaced in a value and left out of a text. -/
structure CharacterReferences where
  valueOf : Str → Str
  textOf : Str → Str
  valueOf_length : ∀ s, (valueOf s).length ≤ s.length
  textOf_length : ∀ s, textOf s = s ∨ (textOf s).length < s.length
  valueOf_plain : ∀ s, '&' ∉ s → NUL ∉ s → valueOf s = s
  textOf_plain : ∀ s, '&' ∉ s → NUL ∉ s → textOf s = s

def OPTION : Str := "<option value=\"".toList

/-- One round of the loop in `doReRouteMessages`. -/
def optionMarkup (name : Str) : Str :=
  OPTION ++ name ++ "\">".toList ++ name ++ "</option>".toList

def SELECT : Str :=
  ("<select id=\"allQueues\" style=\"font-size: 14px; display: block; margin: 0 auto; " ++
    "margin-top: 10px;\">").toList

def selectElement (data : List Str) : Str :=
  SELECT ++ data.flatMap optionMarkup ++ "</select>".toList

/-- What stands in front of the first start tag of an option, and behind each of them up to the
next one. -/
def optionParts : Str → Str × List Str
  | [] => ([], [])
  | c :: s =>
    let parts := optionParts s
    if OPTION <+: c :: s then ([], parts.1.drop (OPTION.length - 1) :: parts.2)
    else (c :: parts.1, parts.2)

def opensTag (s : Str) : Bool :=
  s.head?.any fun c => c.isAlpha || c == '/' || c == '!' || c == '?'

def untilTag : Str → Str
  | [] => []
  | c :: s => if c = '<' ∧ opensTag s = true then [] else c :: untilTag s

variable (references : CharacterReferences)

/-- A start tag ends at the `>` behind its value, whatever stands between them. -/
def readOption (part : Str) : SelectOption :=
  ⟨references.valueOf (upTo '"' part), references.textOf (untilTag (after '>' (after '"' part)))⟩

def readOptions (markup : Str) : List SelectOption :=
  (optionParts markup).2.map (readOption references)

/-- A name that a browser reads as it is, both as a value and as a text. -/
structure Readable (name : Str) : Prop where
  quote : '"' ∉ name
  tag : untilTag name = name
  value : references.valueOf name = name
  text : references.textOf name = name

variable {references}

theorem untilTag_isPrefix (s : Str) : untilTag s <+: s := by
  induction s with
  | nil => exact List.prefix_rfl
  | cons c s ih =>
    rw [untilTag]
    split
    · exact List.nil_prefix
    · exact (List.prefix_cons_inj c).2 ih

theorem untilTag_append (s t : Str) : untilTag (s ++ '<' :: '/' :: t) = untilTag s := by
  induction s with
  | nil => rfl
  | cons c s ih =>
    have hopens : opensTag (s ++ '<' :: '/' :: t) = opensTag s := by
      cases s <;> rfl
    rw [List.cons_append, untilTag, untilTag, hopens, ih]

theorem readable_of_plain {name : Str}
    (h : ∀ c ∈ name, c ≠ '"' ∧ c ≠ '<' ∧ c ≠ '&' ∧ c ≠ NUL) : Readable references name where
  quote hc := (h _ hc).1 rfl
  tag := by
    induction name with
    | nil => rfl
    | cons c s ih =>
      have hc := (h c List.mem_cons_self).2.1
      rw [untilTag, if_neg fun htag => hc htag.1, ih fun d hd => h d (List.mem_cons_of_mem c hd)]
  value := references.valueOf_plain name (fun hc => (h _ hc).2.2.1 rfl) fun hc =>
    (h _ hc).2.2.2 rfl
  text := references.textOf_plain name (fun hc => (h _ hc).2.2.1 rfl) fun hc => (h _ hc).2.2.2 rfl

def part (name rest : Str) : Str := name ++ '"' :: '>' :: (name ++ '<' :: '/' :: rest)

theorem readOption_part_iff {name shown : Str} (hlength : name.length = shown.length)
    (rest : Str) : readOption references (part name rest) = ⟨shown, shown⟩ ↔
      name = shown ∧ Readable references shown := by
  rw [readOption, part, upTo_append_cons, SelectOption.mk.injEq]
  by_cases hquote : '"' ∈ name
  · refine iff_of_false (fun h => ?_) fun h => h.2.quote (h.1 ▸ hquote)
    have hsplit := congrArg List.length (upTo_append_after hquote)
    have hle := references.valueOf_length (upTo '"' name)
    rw [h.1] at hle
    rw [List.length_append, List.length_cons] at hsplit
    omega
  · have hclosed : after '>' ('>' :: (name ++ '<' :: '/' :: rest)) = name ++ '<' :: '/' :: rest :=
      after_append (s := []) List.not_mem_nil
    rw [upTo_of_notMem hquote, after_append hquote, hclosed, untilTag_append]
    constructor
    · rintro ⟨hvalue, htext⟩
      have hprefix := (untilTag_isPrefix name).length_le
      obtain hsame | hless := references.textOf_length (untilTag name)
      · rw [htext] at hsame
        have htag : untilTag name = name :=
          (untilTag_isPrefix name).eq_of_length (hsame ▸ hlength.symm)
        have hname : name = shown := htag ▸ hsame.symm
        subst hname
        rw [htag] at htext
        exact ⟨rfl, hquote, htag, hvalue, htext⟩
      · rw [htext] at hless
        omega
    · rintro ⟨rfl, h⟩
      exact ⟨h.value, h.tag.symm ▸ h.text⟩

theorem optionParts_append {w s : Str}
    (h : ∀ rest, rest <:+ w → rest ≠ [] → ¬OPTION <+: rest ++ s) :
    optionParts (w ++ s) = (w ++ (optionParts s).1, (optionParts s).2) := by
  induction w with
  | nil => rfl
  | cons c w ih =>
    have hrest := ih fun rest hsuffix => h rest (hsuffix.trans (List.suffix_cons c w))
    have hfirst := h (c :: w) List.suffix_rfl (List.cons_ne_nil c w)
    rw [List.cons_append] at hfirst ⊢
    rw [optionParts, if_neg hfirst, hrest]
    rfl

theorem not_option_of_notMem {rest s : Str} (hne : rest ≠ []) (h : '<' ∉ rest) :
    ¬OPTION <+: rest ++ s := by
  cases rest with
  | nil => exact absurd rfl hne
  | cons c rest =>
    intro hprefix
    obtain ⟨rfl, -⟩ := List.cons_prefix_cons.1 hprefix
    exact h List.mem_cons_self

theorem optionParts_option (s : Str) :
    optionParts (OPTION ++ s) = ([], (optionParts s).1 :: (optionParts s).2) := by
  have htail : optionParts ("option value=\"".toList ++ s) =
      ("option value=\"".toList ++ (optionParts s).1, (optionParts s).2) :=
    optionParts_append fun rest hsuffix hne =>
      not_option_of_notMem hne fun hmem => absurd (hsuffix.subset hmem) (by decide)
  have hstart : OPTION <+: '<' :: ("option value=\"".toList ++ s) := List.prefix_append OPTION s
  change optionParts ('<' :: ("option value=\"".toList ++ s)) = _
  rw [optionParts, if_pos hstart, htail]
  rfl

theorem optionParts_part {name : Str} (h : ' ' ∉ name) (s : Str) :
    optionParts (part name "option>".toList ++ s) =
      (part name "option>".toList ++ (optionParts s).1, (optionParts s).2) := by
  refine optionParts_append fun rest hsuffix hne hprefix => ?_
  by_cases hlong : 8 ≤ rest.length
  · -- the start tag has a blank, and a part has none
    have hstart : "<option ".toList <+: rest ++ s :=
      (List.take_prefix 8 OPTION).trans hprefix
    have hmem := (List.prefix_of_prefix_length_le hstart (List.prefix_append rest s) hlong).subset
      (show ' ' ∈ "<option ".toList by decide)
    have hpart := hsuffix.subset hmem
    simp [part, h] at hpart
  · -- what is shorter stands within the end tag
    have hend : "option>".toList <:+ part name "option>".toList :=
      ⟨name ++ '"' :: '>' :: (name ++ ['<', '/']), by simp [part]⟩
    have hshort : rest <:+ "option>".toList :=
      List.suffix_of_suffix_length_le hsuffix hend (by simpa using Nat.le_of_lt_succ (by omega))
    exact not_option_of_notMem hne (fun hmem => absurd (hshort.subset hmem) (by decide)) hprefix

def parts : List Str → List Str
  | [] => []
  | [name] => [part name "option></select>".toList]
  | name :: next :: names => part name "option>".toList :: parts (next :: names)

theorem optionMarkup_eq (name : Str) :
    optionMarkup name = OPTION ++ part name "option>".toList := by
  simp [optionMarkup, part]

theorem optionParts_options {names : List Str} (h : ∀ name ∈ names, ' ' ∉ name) :
    optionParts (names.flatMap optionMarkup ++ "</select>".toList) =
      (if names = [] then "</select>".toList else [], parts names) := by
  induction names with
  | nil => decide
  | cons name names ih =>
    have hname := h name List.mem_cons_self
    have hnames := ih fun name hmem => h name (List.mem_cons_of_mem _ hmem)
    rw [List.flatMap_cons, optionMarkup_eq, List.append_assoc, List.append_assoc,
      optionParts_option, optionParts_part hname, hnames]
    cases names with
    | nil => simp [parts, part]
    | cons next names => simp [parts]

theorem readOptions_selectElement {names : List Str} (h : ∀ name ∈ names, ' ' ∉ name) :
    readOptions references (selectElement names) = (parts names).map (readOption references) := by
  have hselect : ∀ rest, rest <:+ SELECT → rest ≠ [] →
      ¬OPTION <+: rest ++ (names.flatMap optionMarkup ++ "</select>".toList) := by
    intro rest hsuffix hne hprefix
    have hselect : SELECT = '<' :: SELECT.tail := rfl
    rw [hselect, List.suffix_cons_iff] at hsuffix
    rcases hsuffix with rfl | hsuffix
    · have hstart := (List.take_prefix 2 OPTION).trans hprefix
      have hnot : ¬OPTION.take 2 <+: '<' :: SELECT.tail := by decide
      exact hnot (List.prefix_of_prefix_length_le hstart (List.prefix_append _ _) (by decide))
    · exact not_option_of_notMem hne (fun hmem => absurd (hsuffix.subset hmem) (by decide)) hprefix
  rw [readOptions, selectElement, List.append_assoc, optionParts_append hselect,
    optionParts_options h]

theorem length_parts (names : List Str) : (parts names).length = names.length := by
  induction names using parts.induct with
  | case1 => rfl
  | case2 name => rfl
  | case3 name next names ih =>
    rw [parts, List.length_cons, ih]
    rfl

/-- The options show names of these lengths just when these are the names and all are readable. -/
theorem read_parts_iff {names shown : List Str}
    (hlength : names.map List.length = shown.map List.length) :
    (parts names).map (readOption references) = shown.map (fun name => ⟨name, name⟩) ↔
      names = shown ∧ ∀ name ∈ shown, Readable references name := by
  induction names using parts.induct generalizing shown with
  | case1 =>
    obtain rfl : shown = [] := by simpa using hlength.symm
    simp [parts]
  | case2 name =>
    cases shown with
    | nil => simp at hlength
    | cons first shown =>
      obtain ⟨hfirst, hrest⟩ := List.cons.inj hlength
      obtain rfl : shown = [] := by simpa using hrest.symm
      simp [parts, readOption_part_iff hfirst]
  | case3 name next names ih =>
    cases shown with
    | nil => simp at hlength
    | cons first shown =>
      obtain ⟨hfirst, hrest⟩ := List.cons.inj hlength
      rw [parts, List.map_cons, List.map_cons, List.cons.injEq, readOption_part_iff hfirst,
        ih hrest, List.forall_mem_cons, List.cons.injEq]
      tauto

end CarbonMessaging.OptionMarkup
