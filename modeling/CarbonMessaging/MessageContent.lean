import CarbonMessaging.CarbonPlatform

/-! The content of a message as text for the browser: `getMessageContentAsString` of the andes core
`Utils` and of the console's `QueueBrowserClient`. The text of a stream leaves it unescaped when
the stream is read to its end. -/

namespace CarbonMessaging.MessageContent

open JavaLang

/-- A Java string, as UTF-16 code units. -/
abbrev Text := List UInt16

def unit (c : Char) : UInt16 := UInt16.ofNat c.toNat

def units (s : Str) : Text := s.map unit

def trim (s : Text) : Text := (s.dropWhile (· ≤ 32)).rdropWhile (· ≤ 32)

def escapeUnit (u : UInt16) : Text :=
  if u = 34 then units "&quot;".toList
  else if u = 38 then units "&amp;".toList
  else if u = 60 then units "&lt;".toList
  else if u = 62 then units "&gt;".toList
  else if u ≤ 127 then [u]
  else units "&#".toList ++ units (intToString u.toNat) ++ units ";".toList

/-- The real function has names for some of the entities that stand with their number here. -/
def StringEscapeUtils.escapeHtml (s : Text) : Text := s.flatMap escapeUnit

/-- What `StreamMessage.readObject` does: an object as it reads in a string concatenation, a null,
or an exception other than the one that marks the end. -/
inductive Read where
  | object (text : Text)
  | null
  | raises (e : JavaException)
  deriving DecidableEq

/-- A message, with everything its accessors may do; a text that is missing is a null. The reads of
a stream end in a `MessageEOFException`. -/
inductive Message where
  | text (getText : Except JavaException (Option Text))
  | object
  | map (entries : Except JavaException (List (Text × Except JavaException (Option Text))))
  | stream (reset : Except JavaException Unit) (reads : List Read)
  | bytes (readBytes : Except JavaException (List Int))
  | other

variable (escapeHtml : Text → Text)

def getContentFromStreamMessage : List Read → (sb : Text) → Except JavaException Text
  | [], sb => .ok sb
  | .object text :: reads, sb =>
    getContentFromStreamMessage reads (sb ++ text ++ units ", ".toList)
  | .null :: _, sb => .ok (escapeHtml sb)
  | .raises e :: _, _ => .error e

/-- Every round escapes the whole text again. -/
def contentFromMap : List (Text × Except JavaException (Option Text)) → (sb wholeMsg : Text) →
    Except JavaException Text
  | [], _, wholeMsg => .ok wholeMsg
  | (mapName, getObject) :: rest, sb, _ =>
    getObject.bind fun value =>
      match value with
      | none => .error nullPointerException
      | some mapVal =>
        let sb := sb ++ mapName ++ units ": ".toList ++ mapVal ++ units ", ".toList
        contentFromMap rest sb (trim (escapeHtml sb))

def contentFromBytes : List Int → (sb wholeMsg : Text) → Text
  | [], _, wholeMsg => wholeMsg
  | byte :: rest, sb, _ =>
    let sb := sb ++ units (intToString byte) ++ units " ".toList
    contentFromBytes rest sb (trim sb)

def summary (wholeMsg : Text) : Text :=
  if wholeMsg.length ≥ 15 then wholeMsg.take 15 else wholeMsg

def summarized (wholeMsg : Text) : Text × Text := (summary wholeMsg, wholeMsg)

def messageContent : Message → Except JavaException (Text × Text)
  | .text getText =>
    getText.bind fun text =>
      match text with
      | none => .error nullPointerException
      | some text =>
        let wholeMsg := trim (escapeHtml text)
        .ok (summary wholeMsg,
          if wholeMsg.length > 200 then units "Message Content is too large to display".toList
          else wholeMsg)
  | .object =>
    .ok (units "Not Supported".toList, units "This Operation is Not Supported!".toList)
  | .map entries =>
    entries.bind fun entries => (contentFromMap escapeHtml entries [] []).map summarized
  | .stream reset reads =>
    reset.bind fun _ => (getContentFromStreamMessage escapeHtml reads []).map fun content =>
      summarized (trim content)
  | .bytes readBytes => readBytes.map fun bytes => summarized (contentFromBytes bytes [] [])
  | .other => .ok ([], [])

namespace Utils

def getMessageContentAsString : Message → Except JavaException (Text × Text) :=
  messageContent escapeHtml

end Utils

namespace QueueBrowserClient

def getMessageContentAsString : Message → Except JavaException (Text × Text) :=
  messageContent escapeHtml

end QueueBrowserClient

def isMarkup (u : UInt16) : Bool := u == 60 || u == 62 || u == 34

def Safe (s : Text) : Prop := ∀ u ∈ s, isMarkup u = false

instance (s : Text) : Decidable (Safe s) := List.decidableBAll (fun u => isMarkup u = false) s

/-- Whatever either function returns can be put into a page, and they return the same. -/
structure ContentSafe (m : Message) : Prop where
  utils : ∀ content, Utils.getMessageContentAsString escapeHtml m = .ok content →
    Safe content.1 ∧ Safe content.2
  client : ∀ content, QueueBrowserClient.getMessageContentAsString escapeHtml m = .ok content →
    Safe content.1 ∧ Safe content.2
  same : Utils.getMessageContentAsString escapeHtml m =
    QueueBrowserClient.getMessageContentAsString escapeHtml m

def readToEnd : List Read → Option (List Text)
  | [] => some []
  | .object text :: reads => (readToEnd reads).map (text :: ·)
  | .null :: _ => none
  | .raises _ :: _ => none

/-- A stream that is read to its end has no markup in its objects. -/
def Escaped : Message → Prop
  | .stream (.ok ()) reads => ∀ texts ∈ readToEnd reads, ∀ text ∈ texts, Safe text
  | _ => True

variable {escapeHtml}

@[simp] theorem safe_nil : Safe [] := fun _ h => absurd h List.not_mem_nil

@[simp] theorem safe_append_iff {s t : Text} : Safe (s ++ t) ↔ Safe s ∧ Safe t :=
  List.forall_mem_append

theorem exists_of_map_eq_ok {ε α β : Type} {f : α → β} {x : Except ε α} {b : β}
    (h : x.map f = .ok b) : ∃ a, x = .ok a ∧ f a = b := by
  cases x with
  | error e => cases h
  | ok a => exact ⟨a, rfl, Except.ok.inj h⟩

theorem isMarkup_gt {u : UInt16} (h : isMarkup u = true) : ¬u ≤ 32 := by
  simp only [isMarkup, Bool.or_eq_true, beq_iff_eq] at h
  rcases h with (rfl | rfl) | rfl <;> decide

theorem mem_dropWhile_of_not {p : UInt16 → Bool} {s : Text} {u : UInt16} (hu : u ∈ s)
    (hp : p u = false) : u ∈ s.dropWhile p := by
  rw [← List.takeWhile_append_dropWhile (p := p) (l := s)] at hu
  refine (List.mem_append.1 hu).resolve_left fun htake => ?_
  rw [List.mem_takeWhile_imp htake] at hp
  cases hp

theorem safe_trim_iff {s : Text} : Safe (trim s) ↔ Safe s := by
  constructor
  · intro h u hu
    by_contra hne
    have hmarkup : isMarkup u = true := by simpa using hne
    have hlarge : decide (u ≤ 32) = false := decide_eq_false (isMarkup_gt hmarkup)
    have hkept : u ∈ trim s := by
      rw [trim, List.rdropWhile, List.mem_reverse]
      exact mem_dropWhile_of_not (List.mem_reverse.2 (mem_dropWhile_of_not hu hlarge)) hlarge
    rw [h u hkept] at hmarkup
    cases hmarkup
  · intro h u hu
    rw [trim] at hu
    have hdrop := (List.rdropWhile_prefix _ _).subset hu
    exact h u ((List.dropWhile_suffix _).subset hdrop)

theorem safe_summarized {wholeMsg : Text} (h : Safe wholeMsg) :
    Safe (summarized wholeMsg).1 ∧ Safe (summarized wholeMsg).2 := by
  refine ⟨?_, h⟩
  rw [summarized, summary]
  split
  · exact fun u hu => h u (List.mem_of_mem_take hu)
  · exact h

theorem isMarkup_digit {c : Char} (h : c.isDigit = true) : isMarkup (unit c) = false := by
  obtain ⟨hlow, hhigh⟩ := Char.isDigit_iff_toNat.1 h
  have hall : ∀ k < 58, 48 ≤ k → isMarkup (UInt16.ofNat k) = false := by decide
  exact hall c.toNat (Nat.lt_succ_of_le hhigh) hlow

theorem safe_intToString (n : Int) : Safe (units (intToString n)) := by
  have hdigits : ∀ m : Nat, Safe (units (Nat.toDigits 10 m)) := by
    intro m u hu
    obtain ⟨c, hc, rfl⟩ := List.mem_map.1 hu
    exact isMarkup_digit (Nat.isDigit_of_mem_toDigits (by decide) (by decide) hc)
  cases n with
  | ofNat m => exact hdigits m
  | negSucc m =>
    rw [intToString, units, List.map_cons]
    exact List.forall_mem_cons.2 ⟨by decide, hdigits (m + 1)⟩

theorem safe_contentFromBytes (bytes : List Int) {sb wholeMsg : Text} (hsb : Safe sb)
    (hwhole : Safe wholeMsg) : Safe (contentFromBytes bytes sb wholeMsg) := by
  induction bytes generalizing sb wholeMsg with
  | nil => exact hwhole
  | cons byte rest ih =>
    have hnext : Safe (sb ++ units (intToString byte) ++ units " ".toList) :=
      safe_append_iff.2 ⟨safe_append_iff.2 ⟨hsb, safe_intToString byte⟩, by decide⟩
    exact ih hnext (safe_trim_iff.2 hnext)

theorem safe_contentFromMap (hescape : ∀ s, Safe (escapeHtml s))
    {entries : List (Text × Except JavaException (Option Text))} {sb wholeMsg content : Text}
    (hwhole : Safe wholeMsg) (h : contentFromMap escapeHtml entries sb wholeMsg = .ok content) :
    Safe content := by
  induction entries generalizing sb wholeMsg with
  | nil =>
    cases h
    exact hwhole
  | cons entry rest ih =>
    obtain ⟨mapName, getObject⟩ := entry
    rw [contentFromMap] at h
    cases getObject with
    | error e => cases h
    | ok value =>
      cases value with
      | none => cases h
      | some mapVal => exact ih (safe_trim_iff.2 (hescape _)) h

theorem getContentFromStreamMessage_cases {reads : List Read} {sb content : Text}
    (h : getContentFromStreamMessage escapeHtml reads sb = .ok content) :
    (∃ texts ∈ readToEnd reads,
        content = sb ++ texts.flatMap fun text => text ++ units ", ".toList) ∨
      readToEnd reads = none ∧ ∃ s, content = escapeHtml s := by
  induction reads generalizing sb with
  | nil =>
    cases h
    exact .inl ⟨[], rfl, (List.append_nil _).symm⟩
  | cons read reads ih =>
    cases read with
    | object text =>
      rcases ih h with ⟨texts, htexts, rfl⟩ | ⟨hnone, hescaped⟩
      · refine .inl ⟨text :: texts, ?_, ?_⟩
        · rw [readToEnd, Option.mem_def.1 htexts]
          rfl
        · simp only [List.flatMap_cons, List.append_assoc]
      · refine .inr ⟨?_, hescaped⟩
        rw [readToEnd, hnone]
        rfl
    | null =>
      cases h
      exact .inr ⟨rfl, sb, rfl⟩
    | raises e => cases h

theorem getContentFromStreamMessage_end {reads : List Read} {texts : List Text}
    (h : readToEnd reads = some texts) (sb : Text) :
    getContentFromStreamMessage escapeHtml reads sb =
      .ok (sb ++ texts.flatMap fun text => text ++ units ", ".toList) := by
  induction reads generalizing sb texts with
  | nil =>
    cases h
    rw [List.flatMap_nil, List.append_nil]
    rfl
  | cons read reads ih =>
    cases read with
    | object text =>
      obtain ⟨rest, hrest, rfl⟩ := Option.map_eq_some_iff.1 h
      rw [getContentFromStreamMessage, ih hrest]
      simp only [List.flatMap_cons, List.append_assoc]
    | null => cases h
    | raises e => cases h

theorem safe_separated_iff {texts : List Text} :
    Safe (texts.flatMap fun text => text ++ units ", ".toList) ↔ ∀ text ∈ texts, Safe text := by
  have hcomma : Safe (units ", ".toList) := by decide
  induction texts with
  | nil => exact ⟨fun _ _ h => absurd h List.not_mem_nil, fun _ => safe_nil⟩
  | cons text texts ih =>
    rw [List.flatMap_cons, safe_append_iff, safe_append_iff, List.forall_mem_cons]
    exact and_congr (and_iff_left hcomma) ih

theorem safe_messageContent (hescape : ∀ s, Safe (escapeHtml s)) {m : Message} (hm : Escaped m)
    {content : Text × Text} (h : messageContent escapeHtml m = .ok content) :
    Safe content.1 ∧ Safe content.2 := by
  cases m with
  | text getText =>
    cases getText with
    | error e => cases h
    | ok text =>
      cases text with
      | none => cases h
      | some text =>
        cases h
        have hwhole : Safe (trim (escapeHtml text)) := safe_trim_iff.2 (hescape text)
        refine ⟨(safe_summarized hwhole).1, ?_⟩
        dsimp only
        split
        · decide
        · exact hwhole
  | object =>
    cases h
    exact ⟨by decide, by decide⟩
  | map entries =>
    cases entries with
    | error e => cases h
    | ok entries =>
      obtain ⟨wholeMsg, hwhole, rfl⟩ := exists_of_map_eq_ok h
      exact safe_summarized (safe_contentFromMap hescape safe_nil hwhole)
  | stream reset reads =>
    cases reset with
    | error e => cases h
    | ok _ =>
      obtain ⟨text, htext, rfl⟩ := exists_of_map_eq_ok h
      refine safe_summarized (safe_trim_iff.2 ?_)
      rcases getContentFromStreamMessage_cases htext with ⟨texts, htexts, rfl⟩ | ⟨-, s, rfl⟩
      · exact safe_separated_iff.2 (hm texts htexts)
      · exact hescape s
  | bytes readBytes =>
    obtain ⟨bytes, -, rfl⟩ := exists_of_map_eq_ok h
    exact safe_summarized (safe_contentFromBytes bytes safe_nil safe_nil)
  | other =>
    cases h
    exact ⟨safe_nil, safe_nil⟩

theorem escaped_of_safe {m : Message}
    (h : ∀ content, messageContent escapeHtml m = .ok content → Safe content.1 ∧ Safe content.2) :
    Escaped m := by
  cases m with
  | stream reset reads =>
    cases reset with
    | error e => trivial
    | ok _ =>
      intro texts htexts
      have hcontent : messageContent escapeHtml (.stream (.ok ()) reads) = .ok (summarized
          (trim ([] ++ texts.flatMap fun text => text ++ units ", ".toList))) := by
        change Except.map _ (getContentFromStreamMessage escapeHtml reads []) = _
        rw [getContentFromStreamMessage_end htexts]
        rfl
      exact safe_separated_iff.1 (safe_trim_iff.1 (h _ hcontent).2)
  | text | object | map | bytes | other => trivial

/-- What the functions return is safe just when no stream with markup in an object is read to its
end. -/
theorem contentSafe_iff (hescape : ∀ s, Safe (escapeHtml s)) (m : Message) :
    ContentSafe escapeHtml m ↔ Escaped m :=
  ⟨fun h => escaped_of_safe h.utils, fun hm =>
    ⟨fun _ => safe_messageContent hescape hm, fun _ => safe_messageContent hescape hm, rfl⟩⟩

theorem safe_escapeUnit (u : UInt16) : Safe (escapeUnit u) := by
  rw [escapeUnit]
  split_ifs with hquot hamp hlt hgt
  · decide
  · decide
  · decide
  · decide
  · intro v hv
    rw [List.mem_singleton.1 hv]
    simp [isMarkup, hquot, hlt, hgt]
  · exact safe_append_iff.2 ⟨safe_append_iff.2 ⟨by decide, safe_intToString _⟩, by decide⟩

theorem safe_escapeHtml (s : Text) : Safe (StringEscapeUtils.escapeHtml s) := by
  intro u hu
  obtain ⟨v, -, hv⟩ := List.mem_flatMap.1 hu
  exact safe_escapeUnit v u hv

theorem contentSafe_text :
    ContentSafe StringEscapeUtils.escapeHtml (.text (.ok (some (units "<b>".toList)))) ↔
      Escaped (.text (.ok (some (units "<b>".toList)))) :=
  contentSafe_iff safe_escapeHtml _

theorem not_contentSafe_script : ¬ContentSafe StringEscapeUtils.escapeHtml
    (.stream (.ok ()) [.object (units "<script>".toList)]) := by
  intro h
  have hsafe := escaped_of_safe h.utils [units "<script>".toList] rfl _ List.mem_cons_self
  revert hsafe
  decide

end CarbonMessaging.MessageContent
