import CarbonMessaging.MessageContent
import CarbonMessaging.PagedLists

/-! Whether the text of a message lists all of its content. A null ends the reading of a stream
and fails that of a map, blanks in front are trimmed, and a body is read into an array whose size
is an int. -/

namespace CarbonMessaging.ContentCompleteness

open JavaLang hiding trim
open MessageContent

def listing (separator : Text) (elements : List Text) : Text := elements.flatMap (· ++ separator)

/-- The content is the listing, escaped or not, without the blank that ends the last separator;
the summary is its first fifteen units. What a null reads as is left open. -/
def Renders (escapeHtml : Text → Text) (elements : Text → Text)
    (content : Except JavaException (Text × Text)) : Prop :=
  ∃ nullText wholeMsg,
    (wholeMsg = (elements nullText).dropLast ∨
      wholeMsg = (escapeHtml (elements nullText)).dropLast) ∧
    content = .ok (wholeMsg.take 15, wholeMsg)

def COMMA : Text := units ", ".toList
def COLON : Text := units ": ".toList
def BLANK : Text := units " ".toList

-- by the elements, as deciding over all units takes too long
theorem plain_COMMA : ∀ u ∈ COMMA, u ≤ 32 ∨ u = 44 := List.forall_iff_forall_mem.1 (by decide)

theorem plain_BLANK : ∀ u ∈ BLANK, u ≤ 32 ∨ u = 44 := List.forall_iff_forall_mem.1 (by decide)

def streamOf (values : List (Option Text)) : Message :=
  .stream (.ok ()) (values.map fun value => value.elim .null .object)

def streamListing (values : List (Option Text)) (nullText : Text) : Text :=
  listing COMMA (values.map fun value => value.getD nullText)

def mapOf (entries : List (Text × Option Text)) : Message :=
  .map (.ok (entries.map fun entry => (entry.1, .ok entry.2)))

def mapListing (entries : List (Text × Option Text)) (nullText : Text) : Text :=
  listing COMMA (entries.map fun entry => entry.1 ++ COLON ++ entry.2.getD nullText)

/-- `readBytes` into `new byte[(int) msglength]` -/
def readBytes (body : List Int) : Except JavaException (List Int) :=
  let size := wrapInt body.length
  if size < 0 then .error negativeArraySizeException else .ok (body.take size.toNat)

def bytesOf (body : List Int) : Message := .bytes (readBytes body)

def bytesListing (body : List Int) (_ : Text) : Text :=
  listing BLANK (body.map fun byte => units (intToString byte))

/-- What is relied on of the escaping: unit by unit, with blanks and commas as they are and no
blank or comma in what stands for another unit. -/
structure EscapesUnits (escapeHtml : Text → Text) : Prop where
  append : ∀ s t, escapeHtml (s ++ t) = escapeHtml s ++ escapeHtml t
  plain : ∀ u, u ≤ 32 ∨ u = 44 → escapeHtml [u] = [u]
  entity : ∀ u, ¬(u ≤ 32 ∨ u = 44) →
    escapeHtml [u] ≠ [] ∧ ∀ v ∈ escapeHtml [u], ¬(v ≤ 32 ∨ v = 44)

def startsVisible (s : Text) : Prop := ∃ u, s.head? = some u ∧ ¬u ≤ 32

def endsVisible (s : Text) : Prop := ∃ u, s.getLast? = some u ∧ ¬u ≤ 32

section
variable {s t : Text} {elements : List Text} {mark : Text}

theorem head_trim_visible {u : UInt16} (h : (trim s).head? = some u) : ¬u ≤ 32 := by
  have hprefix := List.rdropWhile_prefix (· ≤ 32) (s.dropWhile (· ≤ 32))
  rw [trim] at h
  have hhead : (s.dropWhile (· ≤ 32)).head? = some u := by
    obtain ⟨rest, hrest⟩ := hprefix
    rw [← hrest, List.head?_append, h]
    rfl
  have hnot := List.head?_dropWhile_not (fun u : UInt16 => decide (u ≤ 32)) s
  rw [hhead] at hnot
  simpa using hnot

theorem startsVisible_append (h : startsVisible s) (t : Text) : startsVisible (s ++ t) := by
  obtain ⟨u, hu, hvisible⟩ := h
  exact ⟨u, by rw [List.head?_append, hu]; rfl, hvisible⟩

theorem endsVisible_append (h : endsVisible t) (s : Text) : endsVisible (s ++ t) := by
  obtain ⟨u, hu, hvisible⟩ := h
  exact ⟨u, by rw [List.getLast?_append, hu]; rfl, hvisible⟩

theorem trim_blank (hstart : startsVisible (s ++ [32])) (hend : endsVisible s) :
    trim (s ++ [32]) = s := by
  obtain ⟨u, hu, hvisible⟩ := hstart
  obtain ⟨v, hv, hlast⟩ := hend
  obtain ⟨rest, hrest⟩ := List.head?_eq_some_iff.1 hu
  have hkeep : (s ++ [32]).dropWhile (· ≤ 32) = s ++ [32] := by
    rw [hrest, List.dropWhile_cons_of_neg (by simpa using hvisible)]
  rw [trim, hkeep, List.rdropWhile_concat_pos _ _ _ (by decide), List.rdropWhile_eq_self_iff]
  intro hne
  obtain ⟨before, hbefore⟩ := List.getLast?_eq_some_iff.1 hv
  simpa [hbefore] using hlast

theorem listing_concat (hne : elements ≠ []) : ∃ front,
    listing (mark ++ [32]) elements = front ++ (elements.getLast hne ++ mark) ++ [32] := by
  refine ⟨listing (mark ++ [32]) elements.dropLast, ?_⟩
  conv_lhs => rw [← List.dropLast_append_getLast hne]
  simp [listing, List.flatMap_append]

theorem startsVisible_listing (hne : elements ≠ [])
    (hstart : ∀ element ∈ elements.head?, startsVisible (element ++ mark)) :
    startsVisible (listing (mark ++ [32]) elements) := by
  obtain ⟨first, rest, rfl⟩ := List.exists_cons_of_ne_nil hne
  have hlisting : listing (mark ++ [32]) (first :: rest) =
      (first ++ mark) ++ ([32] ++ listing (mark ++ [32]) rest) := by simp [listing]
  rw [hlisting]
  exact startsVisible_append (hstart first rfl) _

theorem trim_listing (mark : Text)
    (hend : ∀ element ∈ elements, endsVisible (element ++ mark))
    (hstart : ∀ element ∈ elements.head?, startsVisible (element ++ mark)) :
    trim (listing (mark ++ [32]) elements) = (listing (mark ++ [32]) elements).dropLast := by
  by_cases hne : elements = []
  · rw [hne]
    rfl
  · have hvisible := startsVisible_listing hne hstart
    obtain ⟨front, hfront⟩ := @listing_concat _ mark hne
    rw [hfront] at hvisible ⊢
    rw [trim_blank hvisible (endsVisible_append (hend _ (List.getLast_mem hne)) front),
      List.dropLast_concat]

theorem dropLast_listing (hne : elements ≠ []) :
    listing (mark ++ [32]) elements = (listing (mark ++ [32]) elements).dropLast ++ [32] := by
  obtain ⟨front, hfront⟩ := @listing_concat _ mark hne
  rw [hfront, List.dropLast_concat]

theorem count_dropLast_listing (mark : Text) {u : UInt16} (hu : u ≠ 32) :
    (listing (mark ++ [32]) elements).dropLast.count u =
      (listing (mark ++ [32]) elements).count u := by
  by_cases hne : elements = []
  · rw [hne]
    rfl
  · conv_rhs => rw [dropLast_listing hne]
    simp [List.count_append, hu.symm]

theorem count_dropLast_commas :
    (listing COMMA elements).dropLast.count 44 = (listing COMMA elements).count 44 :=
  count_dropLast_listing [44] (by decide)

theorem trim_sublist (s : Text) : (trim s).Sublist s :=
  (List.rdropWhile_prefix _ _).sublist.trans (List.dropWhile_suffix _).sublist

theorem summarized_eq (wholeMsg : Text) : summarized wholeMsg = (wholeMsg.take 15, wholeMsg) := by
  rw [summarized, summary]
  split
  · rfl
  · rename_i hshort
    rw [List.take_of_length_le (by omega)]

end

namespace EscapesUnits

variable {escapeHtml : Text → Text} (h : EscapesUnits escapeHtml)
include h

theorem nil : escapeHtml [] = [] := by
  have hlength := congrArg List.length (h.append [] [])
  rw [List.append_nil, List.length_append] at hlength
  exact List.eq_nil_of_length_eq_zero (by omega)

theorem cons (u : UInt16) (s : Text) : escapeHtml (u :: s) = escapeHtml [u] ++ escapeHtml s :=
  h.append [u] s

theorem count {u : UInt16} (hu : u ≤ 32 ∨ u = 44) (s : Text) :
    (escapeHtml s).count u = s.count u := by
  induction s with
  | nil => rw [h.nil]
  | cons v s ih =>
    rw [h.cons, List.count_append, ih, List.count_cons]
    by_cases hv : v ≤ 32 ∨ v = 44
    · rw [h.plain v hv, List.count_singleton, Nat.add_comm]
    · have hnone : u ∉ escapeHtml [v] := fun hmem => (h.entity v hv).2 u hmem hu
      have hne : v ≠ u := fun hvu => hv (hvu ▸ hu)
      rw [List.count_eq_zero_of_not_mem hnone, if_neg (by simpa using hne), Nat.zero_add,
        Nat.add_zero]

theorem listing {separator : Text} (hseparator : ∀ u ∈ separator, u ≤ 32 ∨ u = 44)
    (elements : List Text) : escapeHtml (listing separator elements) =
      ContentCompleteness.listing separator (elements.map escapeHtml) := by
  have hkept : ∀ s : Text, (∀ u ∈ s, u ≤ 32 ∨ u = 44) → escapeHtml s = s := by
    intro s hs
    induction s with
    | nil => exact h.nil
    | cons u s ih =>
      rw [h.cons, h.plain u (hs u List.mem_cons_self), ih fun v hv => hs v (by simp [hv])]
      rfl
  induction elements with
  | nil => exact h.nil
  | cons element elements ih =>
    rw [ContentCompleteness.listing, List.flatMap_cons, h.append, h.append, hkept _ hseparator]
    change _ ++ escapeHtml (ContentCompleteness.listing separator elements) = _
    rw [ih]
    rfl

theorem startsVisible {s : Text} (hs : startsVisible s) : startsVisible (escapeHtml s) := by
  obtain ⟨u, hu, hvisible⟩ := hs
  obtain ⟨rest, rfl⟩ := List.head?_eq_some_iff.1 hu
  rw [h.cons]
  refine startsVisible_append ?_ _
  by_cases hcomma : u = 44
  · rw [h.plain u (.inr hcomma)]
    exact ⟨u, rfl, hvisible⟩
  · obtain ⟨hne, hentity⟩ := h.entity u (by simp [hvisible, hcomma])
    obtain ⟨v, rest, hv⟩ := List.exists_cons_of_ne_nil hne
    exact ⟨v, by rw [hv]; rfl, fun hle => hentity v (by simp [hv]) (.inl hle)⟩

theorem head_blank {s : Text} {u : UInt16} (hs : s.head? = some u) (hu : u ≤ 32) :
    (escapeHtml s).head? = some u := by
  obtain ⟨rest, rfl⟩ := List.head?_eq_some_iff.1 hs
  rw [h.cons, h.plain u (.inl hu)]
  rfl

end EscapesUnits

section
variable {escapeHtml : Text → Text}

def StartsBlank (text : Text) : Prop := ∃ u, text.head? = some u ∧ u ≤ 32

instance (text : Text) : Decidable (StartsBlank text) :=
  decidable_of_iff (text.head?.any (· ≤ 32) = true) (by
    cases h : text.head? <;> simp [StartsBlank, h])

/-- No value is null, and no blank is in front of the first one. -/
def StreamKept (values : List (Option Text)) : Prop :=
  (∀ value ∈ values, value ≠ none) ∧ ∀ text, values.head? = some (some text) → ¬StartsBlank text

def MapKept (entries : List (Text × Option Text)) : Prop :=
  (∀ entry ∈ entries, entry.2 ≠ none) ∧ ∀ entry ∈ entries.head?, ¬StartsBlank entry.1

theorem startsVisible_of_not_blank {text mark : Text} (h : ¬StartsBlank text)
    (hmark : startsVisible mark) : startsVisible (text ++ mark) := by
  cases text with
  | nil => exact hmark
  | cons u text => exact ⟨u, rfl, fun hu => h ⟨u, rfl, hu⟩⟩

theorem not_dropLast_of_blank {content whole : Text} {u : UInt16} (hhead : content.head? = some u)
    (hblank : u ≤ 32) (hlong : 1 < content.length) (htrim : content.dropLast = trim whole) :
    False := by
  obtain ⟨rest, rfl⟩ := List.head?_eq_some_iff.1 hhead
  obtain ⟨v, rest, rfl⟩ := List.exists_cons_of_length_pos (Nat.lt_of_succ_lt_succ hlong)
  refine head_trim_visible (s := whole) (u := u) ?_ hblank
  rw [← htrim]
  rfl

theorem values_cases (values : List (Option Text)) :
    (∃ texts : List Text, values = texts.map some) ∨
      ∃ (texts : List Text) (rest : List (Option Text)),
        values = texts.map some ++ none :: rest := by
  induction values with
  | nil => exact .inl ⟨[], rfl⟩
  | cons value values ih =>
    cases value with
    | none => exact .inr ⟨[], values, rfl⟩
    | some text =>
      rcases ih with ⟨texts, rfl⟩ | ⟨texts, rest, rfl⟩
      · exact .inl ⟨text :: texts, rfl⟩
      · exact .inr ⟨text :: texts, rest, rfl⟩

theorem streamContent_kept (texts : List Text) :
    messageContent escapeHtml (streamOf (texts.map some)) =
      .ok (summarized (trim (listing COMMA texts))) := by
  have hreads : readToEnd ((texts.map some).map fun value => value.elim .null .object) =
      some texts := by
    induction texts with
    | nil => rfl
    | cons text texts ih =>
      change Option.map (text :: ·) (readToEnd _) = _
      rw [ih]
      rfl
  change Except.map _ (getContentFromStreamMessage escapeHtml _ []) = _
  rw [getContentFromStreamMessage_end hreads]
  rfl

theorem streamContent_null (texts : List Text) (rest : List (Option Text)) :
    messageContent escapeHtml (streamOf (texts.map some ++ none :: rest)) =
      .ok (summarized (trim (escapeHtml (listing COMMA texts)))) := by
  have hread : ∀ sb, getContentFromStreamMessage escapeHtml
      ((texts.map some ++ none :: rest).map fun value => value.elim .null .object) sb =
        .ok (escapeHtml (sb ++ listing COMMA texts)) := by
    induction texts with
    | nil =>
      intro sb
      rw [listing, List.flatMap_nil, List.append_nil]
      rfl
    | cons text texts ih =>
      intro sb
      have hlisting : sb ++ listing COMMA (text :: texts) =
          sb ++ text ++ COMMA ++ listing COMMA texts := by simp [listing]
      rw [hlisting]
      exact ih (sb ++ text ++ COMMA)
  change Except.map _ (getContentFromStreamMessage escapeHtml _ []) = _
  rw [hread]
  rfl

theorem renders_of_trim {elements : Text → Text} {content whole : Text}
    (hcontent : content = elements [] ∨ content = escapeHtml (elements []))
    (htrim : trim whole = content.dropLast) :
    Renders escapeHtml elements (.ok (summarized (trim whole))) := by
  refine ⟨[], trim whole, ?_, by rw [summarized_eq]⟩
  rcases hcontent with rfl | rfl
  · exact .inl htrim
  · exact .inr htrim

theorem not_renders_blank (h : EscapesUnits escapeHtml) {elements : Text → Text} {whole : Text}
    (hblank : ∀ nullText, ∃ u rest, elements nullText = u :: rest ∧ u ≤ 32 ∧ rest ≠ []) :
    ¬Renders escapeHtml elements (.ok (summarized (trim whole))) := by
  rintro ⟨nullText, wholeMsg, hlisting, hcontent⟩
  obtain ⟨u, rest, hstart, hu, hne⟩ := hblank nullText
  rw [summarized_eq] at hcontent
  obtain rfl : trim whole = wholeMsg := congrArg Prod.snd (Except.ok.inj hcontent)
  have hlong : 1 < (u :: rest).length := by
    have hpos := List.length_pos_of_ne_nil hne
    rw [List.length_cons]
    omega
  rw [hstart] at hlisting
  rcases hlisting with hraw | hescaped
  · exact not_dropLast_of_blank rfl hu hlong hraw.symm
  · refine not_dropLast_of_blank (h.head_blank rfl hu) hu ?_ hescaped.symm
    have hrest : escapeHtml rest ≠ [] := by
      obtain ⟨v, rest, rfl⟩ := List.exists_cons_of_ne_nil hne
      rw [h.cons]
      by_cases hv : v ≤ 32 ∨ v = 44
      · simp [h.plain v hv]
      · simp [(h.entity v hv).1]
    have hpos := List.length_pos_of_ne_nil hrest
    rw [h.cons, h.plain u (.inl hu), List.length_append, List.length_singleton]
    omega

theorem blank_listing {first : Text} (h : StartsBlank first) (texts : List Text) :
    ∃ u rest, listing COMMA (first :: texts) = u :: rest ∧ u ≤ 32 ∧ rest ≠ [] := by
  obtain ⟨u, hu, hle⟩ := h
  obtain ⟨rest, rfl⟩ := List.head?_eq_some_iff.1 hu
  exact ⟨u, rest ++ COMMA ++ listing COMMA texts, by simp [listing], hle, by simp [COMMA, units]⟩

theorem count_streamListing_lt (texts : List Text) (rest : List (Option Text)) (nullText : Text) :
    (listing COMMA texts).count 44 <
      (streamListing (texts.map some ++ none :: rest) nullText).count 44 := by
  have hcomma : (44 : UInt16) ∈ COMMA := by decide
  have hsplit : streamListing (texts.map some ++ none :: rest) nullText =
      listing COMMA texts ++ (nullText ++ COMMA) ++ streamListing rest nullText := by
    simp [streamListing, listing, List.map_append, Function.comp_def]
  rw [hsplit, List.count_append, List.count_append, List.count_append]
  have hpos := List.count_pos_iff.2 hcomma
  omega

theorem not_renders_part (h : EscapesUnits escapeHtml) (texts : List Text)
    (rest : List (Option Text)) :
    ¬Renders escapeHtml (streamListing (texts.map some ++ none :: rest))
      (.ok (summarized (trim (escapeHtml (listing COMMA texts))))) := by
  rintro ⟨nullText, wholeMsg, hlisting, hcontent⟩
  rw [summarized_eq] at hcontent
  obtain rfl : trim (escapeHtml (listing COMMA texts)) = wholeMsg :=
    congrArg Prod.snd (Except.ok.inj hcontent)
  have hread := ((trim_sublist (escapeHtml (listing COMMA texts))).count_le 44)
  have hall := count_streamListing_lt texts rest nullText
  rw [h.count (.inr rfl)] at hread
  rcases hlisting with hraw | hescaped
  · rw [hraw, streamListing, count_dropLast_commas] at hread
    exact absurd hread (not_le.2 hall)
  · rw [hescaped, streamListing, h.listing plain_COMMA,
      count_dropLast_commas, ← h.listing plain_COMMA,
      h.count (.inr rfl)] at hread
    exact absurd hread (not_le.2 hall)

theorem stream_iff (h : EscapesUnits escapeHtml) (values : List (Option Text)) :
    Renders escapeHtml (streamListing values) (messageContent escapeHtml (streamOf values)) ↔
      StreamKept values := by
  rcases values_cases values with ⟨texts, rfl⟩ | ⟨texts, rest, rfl⟩
  · have hlisting : ∀ nullText, streamListing (texts.map some) nullText = listing COMMA texts := by
      intro nullText
      rw [streamListing, List.map_map]
      exact congrArg (listing COMMA) (List.map_id texts)
    rw [streamContent_kept]
    constructor
    · intro hrenders
      refine ⟨by simp, fun text htext hblank => ?_⟩
      cases texts with
      | nil => cases htext
      | cons first texts =>
        obtain rfl : first = text := by simpa using htext
        refine not_renders_blank h (fun nullText => ?_) hrenders
        rw [hlisting]
        exact blank_listing hblank texts
    · intro hkept
      refine renders_of_trim (.inl (hlisting []).symm) (trim_listing [44] ?_ ?_)
      · exact fun text _ => endsVisible_append ⟨44, rfl, by decide⟩ text
      · intro text htext
        refine startsVisible_of_not_blank (hkept.2 text ?_) ⟨44, rfl, by decide⟩
        rw [List.head?_map, Option.mem_def.1 htext]
        rfl
  · rw [streamContent_null]
    exact iff_of_false (not_renders_part h texts rest) fun hkept => hkept.1 none (by simp) rfl

def entryText (entry : Text × Text) : Text := entry.1 ++ COLON ++ entry.2

theorem startsBlank_entryText {entry : Text × Text} (h : StartsBlank entry.1) :
    StartsBlank (entryText entry) := by
  obtain ⟨u, hu, hle⟩ := h
  refine ⟨u, ?_, hle⟩
  rw [entryText, List.append_assoc, List.head?_append, hu]
  rfl

theorem contentFromMap_kept (entries : List (Text × Text)) (sb wholeMsg : Text) :
    contentFromMap escapeHtml (entries.map fun entry => (entry.1, .ok (some entry.2))) sb wholeMsg =
      .ok (if entries = [] then wholeMsg
        else trim (escapeHtml (sb ++ listing COMMA (entries.map entryText)))) := by
  induction entries generalizing sb wholeMsg with
  | nil => rfl
  | cons entry entries ih =>
    have hlisting : sb ++ listing COMMA ((entry :: entries).map entryText) =
        sb ++ entry.1 ++ COLON ++ entry.2 ++ COMMA ++ listing COMMA (entries.map entryText) := by
      simp [listing, entryText]
    refine (ih (sb ++ entry.1 ++ COLON ++ entry.2 ++ COMMA) _).trans ?_
    rw [hlisting, if_neg (List.cons_ne_nil entry entries)]
    split
    · rename_i hnil
      rw [hnil]
      simp [listing, COLON, COMMA]
    · rfl

theorem contentFromMap_null {entries : List (Text × Option Text)}
    (hnull : ∃ entry ∈ entries, entry.2 = none) (sb wholeMsg : Text) :
    contentFromMap escapeHtml (entries.map fun entry => (entry.1, .ok entry.2)) sb wholeMsg =
      .error nullPointerException := by
  induction entries generalizing sb wholeMsg with
  | nil => simp at hnull
  | cons entry entries ih =>
    obtain ⟨name, value⟩ := entry
    cases value with
    | none => rfl
    | some value =>
      refine ih ?_ _ _
      simpa using hnull

theorem exists_entries {entries : List (Text × Option Text)}
    (h : ∀ entry ∈ entries, entry.2 ≠ none) :
    ∃ full : List (Text × Text), entries = full.map fun entry => (entry.1, some entry.2) := by
  induction entries with
  | nil => exact ⟨[], rfl⟩
  | cons entry entries ih =>
    rw [List.forall_mem_cons] at h
    obtain ⟨value, hvalue⟩ := Option.ne_none_iff_exists'.1 h.1
    obtain ⟨full, rfl⟩ := ih h.2
    exact ⟨(entry.1, value) :: full, by rw [List.map_cons, ← hvalue]⟩

theorem mapContent_kept (h : EscapesUnits escapeHtml) (full : List (Text × Text)) :
    messageContent escapeHtml (mapOf (full.map fun entry => (entry.1, some entry.2))) =
      .ok (summarized (trim (escapeHtml (listing COMMA (full.map entryText))))) := by
  have hentries : (full.map fun entry => (entry.1, some entry.2)).map
      (fun entry => (entry.1, (.ok entry.2 : Except JavaException (Option Text)))) =
      full.map fun entry => (entry.1, .ok (some entry.2)) := by
    rw [List.map_map]
    rfl
  change Except.map _ (contentFromMap escapeHtml _ [] []) = _
  rw [hentries, contentFromMap_kept]
  split
  · rename_i hnil
    rw [hnil]
    change _ = Except.ok (summarized (trim (escapeHtml [])))
    rw [h.nil]
    rfl
  · rfl

theorem map_iff (h : EscapesUnits escapeHtml) (entries : List (Text × Option Text)) :
    Renders escapeHtml (mapListing entries) (messageContent escapeHtml (mapOf entries)) ↔
      MapKept entries := by
  by_cases hnull : ∃ entry ∈ entries, entry.2 = none
  · have hfails : messageContent escapeHtml (mapOf entries) = .error nullPointerException := by
      change Except.map _ (contentFromMap escapeHtml _ [] []) = _
      rw [contentFromMap_null hnull]
      rfl
    rw [hfails]
    refine iff_of_false (fun hrenders => ?_) fun hkept => ?_
    · obtain ⟨_, _, _, hcontent⟩ := hrenders
      cases hcontent
    · obtain ⟨entry, hentry, hnone⟩ := hnull
      exact hkept.1 entry hentry hnone
  · obtain ⟨full, rfl⟩ := exists_entries fun entry hentry hnone => hnull ⟨entry, hentry, hnone⟩
    have hlisting : ∀ nullText, mapListing (full.map fun entry => (entry.1, some entry.2))
        nullText = listing COMMA (full.map entryText) := by
      intro nullText
      rw [mapListing, List.map_map]
      rfl
    rw [mapContent_kept h]
    constructor
    · intro hrenders
      refine ⟨fun entry hentry hnone => hnull ⟨entry, hentry, hnone⟩,
        fun entry hentry hblank => ?_⟩
      cases full with
      | nil => cases hentry
      | cons first full =>
        obtain rfl : (first.1, some first.2) = entry := by simpa using hentry
        refine not_renders_blank h (fun nullText => ?_) hrenders
        rw [hlisting]
        exact blank_listing (startsBlank_entryText hblank) (full.map entryText)
    · intro hkept
      refine renders_of_trim (.inr (by rw [hlisting])) ?_
      rw [h.listing plain_COMMA]
      refine trim_listing [44] (fun text _ => endsVisible_append ⟨44, rfl, by decide⟩ text) ?_
      intro text htext
      cases full with
      | nil => cases htext
      | cons first full =>
        obtain rfl : escapeHtml (entryText first) = text := by simpa using htext
        refine startsVisible_append (h.startsVisible ?_) _
        rw [entryText, List.append_assoc]
        exact startsVisible_of_not_blank (hkept.2 _ rfl) ⟨58, rfl, by decide⟩

def byteText (byte : Int) : Text := units (intToString byte)

theorem visible_byteText {byte : Int} {u : UInt16} (hu : u ∈ byteText byte) :
    ¬(u ≤ 32 ∨ u = 44) := by
  have hdigit : ∀ m : Nat, ∀ u ∈ units (Nat.toDigits 10 m), ¬(u ≤ 32 ∨ u = 44) := by
    intro m u hu
    obtain ⟨c, hc, rfl⟩ := List.mem_map.1 hu
    obtain ⟨hlow, hhigh⟩ := Char.isDigit_iff_toNat.1
      (Nat.isDigit_of_mem_toDigits (by decide) (by decide) hc)
    have hall : ∀ k < 58, 48 ≤ k → ¬(UInt16.ofNat k ≤ 32 ∨ UInt16.ofNat k = 44) := by decide
    exact hall c.toNat (Nat.lt_succ_of_le hhigh) hlow
  cases byte with
  | ofNat m => exact hdigit m u hu
  | negSucc m =>
    rw [byteText, intToString, units, List.map_cons] at hu
    rcases List.mem_cons.1 hu with rfl | hu
    · decide
    · exact hdigit (m + 1) u hu

theorem byteText_ne_nil (byte : Int) : byteText byte ≠ [] := by
  rw [byteText, units, Ne, List.map_eq_nil_iff]
  cases byte with
  | ofNat m => exact Nat.toDigits_ne_nil
  | negSucc m => exact List.cons_ne_nil _ _

theorem contentFromBytes_eq (bytes : List Int) (sb wholeMsg : Text) :
    contentFromBytes bytes sb wholeMsg =
      if bytes = [] then wholeMsg else trim (sb ++ listing BLANK (bytes.map byteText)) := by
  induction bytes generalizing sb wholeMsg with
  | nil => rfl
  | cons byte bytes ih =>
    have hlisting : sb ++ listing BLANK ((byte :: bytes).map byteText) =
        sb ++ byteText byte ++ BLANK ++ listing BLANK (bytes.map byteText) := by simp [listing]
    refine (ih (sb ++ byteText byte ++ BLANK) _).trans ?_
    rw [hlisting, if_neg (List.cons_ne_nil byte bytes)]
    split
    · rename_i hnil
      rw [hnil]
      simp [listing, BLANK, byteText]
    · rfl

theorem contentFromBytes_trim (bytes : List Int) :
    contentFromBytes bytes [] [] = (listing BLANK (bytes.map byteText)).dropLast := by
  have htrim : trim (listing BLANK (bytes.map byteText)) =
      (listing BLANK (bytes.map byteText)).dropLast := by
    refine trim_listing [] (fun text htext => ?_) fun text htext => ?_
    · obtain ⟨byte, -, rfl⟩ := List.mem_map.1 htext
      rw [List.append_nil]
      exact ⟨_, List.getLast?_eq_some_getLast (byteText_ne_nil byte),
        fun hle => visible_byteText (List.getLast_mem _) (.inl hle)⟩
    · obtain ⟨byte, -, rfl⟩ := List.mem_map.1 (List.mem_of_mem_head? htext)
      rw [List.append_nil]
      exact ⟨_, List.head?_eq_some_head (byteText_ne_nil byte),
        fun hle => visible_byteText (List.head_mem _) (.inl hle)⟩
  rw [contentFromBytes_eq, ← htrim]
  split
  · rename_i hnil
    rw [hnil]
    rfl
  · rfl

theorem count_blanks (bytes : List Int) :
    (listing BLANK (bytes.map byteText)).count 32 = bytes.length := by
  induction bytes with
  | nil => rfl
  | cons byte bytes ih =>
    have hvisible : (32 : UInt16) ∉ byteText byte := fun h => visible_byteText h (by decide)
    have hcons : listing BLANK ((byte :: bytes).map byteText) =
        byteText byte ++ BLANK ++ listing BLANK (bytes.map byteText) := by simp [listing]
    rw [hcons, List.count_append, List.count_append, ih, List.count_eq_zero_of_not_mem hvisible,
      List.length_cons]
    change 0 + 1 + _ = _
    omega

theorem count_dropLast_blank {elements : List Text} (hne : elements ≠ []) :
    (listing BLANK elements).dropLast.count 32 + 1 = (listing BLANK elements).count 32 := by
  have hlast := @dropLast_listing elements [] hne
  change listing BLANK elements = (listing BLANK elements).dropLast ++ [32] at hlast
  conv_rhs => rw [hlast]
  rw [List.count_append]
  rfl

theorem bytesContent (body : List Int) : messageContent escapeHtml (bytesOf body) =
    (readBytes body).map fun bytes =>
      summarized (listing BLANK (bytes.map byteText)).dropLast := by
  rw [bytesOf, messageContent]
  simp only [contentFromBytes_trim]

theorem readBytes_short {body : List Int} (h : body.length < 2 ^ 31) :
    readBytes body = .ok body := by
  have hsize : wrapInt body.length = body.length := wrapInt_of_bounds (by omega)
  rw [readBytes, hsize]
  simp

theorem readBytes_long {body bytes : List Int} (h : ¬body.length < 2 ^ 31)
    (hread : readBytes body = .ok bytes) : bytes.length < body.length := by
  have hsize := wrapInt_bounds body.length
  rw [readBytes] at hread
  split at hread
  · cases hread
  · rw [← Except.ok.inj hread, List.length_take]
    omega

theorem not_listing_of_fewer (h : EscapesUnits escapeHtml) {bytes body : List Int}
    (hfewer : bytes.length < body.length) (hlong : 1 < body.length) {wholeMsg : Text}
    (hwhole : wholeMsg = (listing BLANK (body.map byteText)).dropLast ∨
      wholeMsg = (escapeHtml (listing BLANK (body.map byteText))).dropLast) :
    (listing BLANK (bytes.map byteText)).dropLast ≠ wholeMsg := by
  rintro rfl
  have hne : body.map byteText ≠ [] := by
    intro hnil
    rw [List.map_eq_nil_iff.1 hnil] at hfewer
    exact absurd hfewer (Nat.not_lt_zero _)
  have hblanks : (listing BLANK (bytes.map byteText)).dropLast.count 32 + 1 < body.length := by
    by_cases hnone : bytes = []
    · rw [hnone]
      exact hlong
    · rw [count_dropLast_blank (by simpa using hnone), count_blanks]
      exact hfewer
  have hall := count_blanks body
  rcases hwhole with hraw | hescaped
  · rw [hraw, count_dropLast_blank hne, hall] at hblanks
    exact lt_irrefl _ hblanks
  · rw [← h.count (.inl (by decide)), h.listing plain_BLANK] at hall
    rw [hescaped, h.listing plain_BLANK, count_dropLast_blank (by simpa using hne), hall]
      at hblanks
    exact lt_irrefl _ hblanks

theorem bytes_iff (h : EscapesUnits escapeHtml) (body : List Int) :
    Renders escapeHtml (bytesListing body) (messageContent escapeHtml (bytesOf body)) ↔
      body.length < 2 ^ 31 := by
  rw [bytesContent]
  constructor
  · rintro ⟨nullText, wholeMsg, hlisting, hcontent⟩
    by_contra hlong
    obtain ⟨bytes, hread, hwhole⟩ := exists_of_map_eq_ok hcontent
    rw [summarized_eq] at hwhole
    exact not_listing_of_fewer h (readBytes_long hlong hread) (by omega) hlisting
      (congrArg Prod.snd hwhole)
  · intro hshort
    rw [readBytes_short hshort]
    exact ⟨[], _, .inl rfl, congrArg Except.ok (summarized_eq _)⟩

/-- The rendered content is complete when nothing in a stream or a map is null, no blank is in
front of it, and the length of a body is an int. -/
theorem renders_iff (escapeHtml : Text → Text) (h : EscapesUnits escapeHtml)
    (values : List (Option Text)) (entries : List (Text × Option Text)) (body : List Int) :
    (Renders escapeHtml (streamListing values)
        (Utils.getMessageContentAsString escapeHtml (streamOf values)) ↔ StreamKept values) ∧
    (Renders escapeHtml (mapListing entries)
        (Utils.getMessageContentAsString escapeHtml (mapOf entries)) ↔ MapKept entries) ∧
    (Renders escapeHtml (bytesListing body)
        (Utils.getMessageContentAsString escapeHtml (bytesOf body)) ↔ body.length < 2 ^ 31) :=
  ⟨stream_iff h values, map_iff h entries, bytes_iff h body⟩

end

theorem visible_escapeUnit {u : UInt16} (hu : ¬(u ≤ 32 ∨ u = 44)) :
    escapeUnit u ≠ [] ∧ ∀ v ∈ escapeUnit u, ¬(v ≤ 32 ∨ v = 44) := by
  rw [escapeUnit]
  split_ifs
  · exact ⟨by decide, List.forall_iff_forall_mem.1 (by decide)⟩
  · exact ⟨by decide, List.forall_iff_forall_mem.1 (by decide)⟩
  · exact ⟨by decide, List.forall_iff_forall_mem.1 (by decide)⟩
  · exact ⟨by decide, List.forall_iff_forall_mem.1 (by decide)⟩
  · simpa using hu
  · refine ⟨by simp [units], fun v hv => ?_⟩
    have hmark : ∀ v ∈ units "&#".toList ++ units ";".toList, ¬(v ≤ 32 ∨ v = 44) :=
      List.forall_iff_forall_mem.1 (by decide)
    rcases List.mem_append.1 hv with hv | hv
    · rcases List.mem_append.1 hv with hv | hv
      · exact hmark v (List.mem_append_left _ hv)
      · exact visible_byteText hv
    · exact hmark v (List.mem_append_right _ hv)

theorem escapeUnit_plain {u : UInt16} (hu : u ≤ 32 ∨ u = 44) : escapeUnit u = [u] := by
  have hvisible : ∀ v ∈ ([34, 38, 60, 62] : Text), ¬(v ≤ 32 ∨ v = 44) :=
    List.forall_iff_forall_mem.1 (by decide)
  have hmarkup : ∀ v ∈ ([34, 38, 60, 62] : Text), u ≠ v := by
    rintro v hv rfl
    exact hvisible u hv hu
  have hascii : u ≤ 127 := by
    rcases hu with hu | rfl
    · exact UInt16.le_trans hu (by decide)
    · decide
  simp only [List.forall_mem_cons] at hmarkup
  obtain ⟨hquot, hamp, hlt, hgt, -⟩ := hmarkup
  rw [escapeUnit, if_neg hquot, if_neg hamp, if_neg hlt, if_neg hgt, if_pos hascii]

theorem escapesUnits_escapeHtml : EscapesUnits StringEscapeUtils.escapeHtml where
  append _ _ := List.flatMap_append
  plain u hu := (List.flatMap_singleton ..).trans (escapeUnit_plain hu)
  entity u hu := by
    rw [StringEscapeUtils.escapeHtml, List.flatMap_singleton]
    exact visible_escapeUnit hu

theorem renders_plain : Renders StringEscapeUtils.escapeHtml
    (streamListing [some (units "a".toList)]) (Utils.getMessageContentAsString
      StringEscapeUtils.escapeHtml (streamOf [some (units "a".toList)])) := by
  refine (renders_iff _ escapesUnits_escapeHtml [some (units "a".toList)] [] []).1.2
    ⟨by simp, fun text htext => ?_⟩
  obtain rfl : units "a".toList = text := by simpa using htext
  decide

theorem not_renders_null :
    ¬Renders StringEscapeUtils.escapeHtml
      (streamListing [some (units "a".toList), none, some (units "b".toList)])
      (Utils.getMessageContentAsString StringEscapeUtils.escapeHtml
        (streamOf [some (units "a".toList), none, some (units "b".toList)])) ∧
    Utils.getMessageContentAsString StringEscapeUtils.escapeHtml
      (mapOf [(units "n".toList, none)]) = .error nullPointerException := by
  refine ⟨fun h => ?_, rfl⟩
  exact ((stream_iff escapesUnits_escapeHtml _).1 h).1 none (by simp) rfl

end CarbonMessaging.ContentCompleteness
