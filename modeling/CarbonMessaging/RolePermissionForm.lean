import CarbonMessaging.DomainFilters
import CarbonMessaging.UriComponent

/-! The role permissions of a queue on their way from the table in the browser to the page that
stores them: `addPermissions` and `updatePermissions` of `treecontrol.js` write one form value,
`update_queue_role_permissions_ajaxprocessor.jsp` reads it. The percent-encoding is undone before
the value is split at its commas. -/

namespace CarbonMessaging.RolePermissionForm

open JavaLang UriComponent

structure QueueRolePermission where
  roleName : Str
  allowedToConsume : Bool
  allowedToPublish : Bool
  deriving DecidableEq

def isWhitespace (c : Char) : Bool :=
  ('\t' ≤ c && c ≤ '\r') || c == ' ' || c == '\u00a0' || c == '\u1680' ||
    ('\u2000' ≤ c && c ≤ '\u200a') || c == '\u2028' || c == '\u2029' || c == '\u202f' ||
    c == '\u205f' || c == '\u3000' || c == '\ufeff'

/-- `s.replace(/^\s+|\s+$/g, "")` -/
def stripWhitespace (s : Str) : Str := (s.dropWhile isWhitespace).rdropWhile isWhitespace

def escapeText (c : Char) : Str :=
  if c = '&' then "&amp;".toList
  else if c = '\u00a0' then "&nbsp;".toList
  else if c = '<' then "&lt;".toList
  else if c = '>' then "&gt;".toList
  else [c]

def innerHTML (text : Str) : Str := text.flatMap escapeText

/-- The text of a role's cell: the page breaks the line behind the name and indents the tag. -/
def cellText (roleName : Str) : Str := roleName ++ '\n' :: List.replicate 32 ' '

def booleanText (b : Bool) : Str := if b then "true".toList else "false".toList

def rowParameters (row : QueueRolePermission) : Str :=
  let roleName := encodeURIComponent (stripWhitespace (innerHTML (cellText row.roleName)))
  roleName ++ ",".toList ++ booleanText row.allowedToConsume ++ ",".toList ++
    booleanText row.allowedToPublish ++ ",".toList

/-- The loop over the table; its first round assigns where the others append to the empty text. -/
def permissionParameters (rows : List QueueRolePermission) : Str :=
  rows.foldl (fun parameters row => parameters ++ rowParameters row) []

def permissionsBody (rows : List QueueRolePermission) : Str :=
  "permissions=".toList ++ permissionParameters rows ++ "&type=input".toList

def addPermissions : List QueueRolePermission → Str := permissionsBody

def updatePermissions : List QueueRolePermission → Str := permissionsBody

-- The page. `decode` is the servlet container's reading of a form value.

def parameterValue (name body : Str) : Option Str :=
  (body.splitOn '&').findSome? fun part =>
    match splitFirst '=' part with
    | (key, some value) => if key = name then some value else none
    | (_, none) => none

def getParameter (decode : Str → Option Str) (body name : Str) : Option Str :=
  (parameterValue name body).bind decode

def parseBoolean (s : Str) : Bool := equalsIgnoreCase s "true".toList

def readPermissions : List Str → Except JavaException (List QueueRolePermission)
  | [] => .ok []
  | role :: allowedCon :: allowedPub :: rest => do
    let others ← readPermissions rest
    pure (⟨role, parseBoolean allowedCon, parseBoolean allowedPub⟩ :: others)
  | _ => .error arrayIndexOutOfBoundsException

def updateQueueRolePermissionsPage (decode : Str → Option Str) (body : Str) :
    Except JavaException (List QueueRolePermission) :=
  match getParameter decode body "permissions".toList with
  | none => readPermissions []
  | some permissions =>
    readPermissions (if permissions ≠ [] then split ',' permissions else [])

structure IsRoleName (name : Str) : Prop where
  nonempty : name ≠ []
  leading : ∀ c, name.head? = some c → isWhitespace c = false
  trailing : ∀ c, name.getLast? = some c → isWhitespace c = false
  ampersand : '&' ∉ name
  less : '<' ∉ name
  greater : '>' ∉ name

theorem rdropWhile_append_blank {s t : Str} (ht : ∀ c ∈ t, isWhitespace c = true) :
    (s ++ t).rdropWhile isWhitespace = s.rdropWhile isWhitespace := by
  induction t using List.reverseRecOn with
  | nil => rw [List.append_nil]
  | append_singleton t c ih =>
    have hc := ht c (by simp)
    rw [← List.append_assoc, List.rdropWhile_concat_pos _ _ _ hc]
    exact ih fun d hd => ht d (by simp [hd])

theorem stripWhitespace_append {s t : Str} (hne : s ≠ [])
    (hleading : ∀ c, s.head? = some c → isWhitespace c = false)
    (htrailing : ∀ c, s.getLast? = some c → isWhitespace c = false)
    (ht : ∀ c ∈ t, isWhitespace c = true) : stripWhitespace (s ++ t) = s := by
  have hleft : (s ++ t).dropWhile isWhitespace = s ++ t := by
    cases s with
    | nil => exact absurd rfl hne
    | cons c s =>
      have hc := hleading c rfl
      rw [List.cons_append, List.dropWhile_cons_of_neg (by simp [hc])]
  rw [stripWhitespace, hleft, rdropWhile_append_blank ht, List.rdropWhile_eq_self_iff]
  intro hs hlast
  have hlast' := htrailing _ (List.getLast?_eq_some_getLast hs)
  rw [hlast'] at hlast
  cases hlast

@[simp] theorem innerHTML_append (s t : Str) : innerHTML (s ++ t) = innerHTML s ++ innerHTML t :=
  List.flatMap_append

theorem escapeText_cases (c : Char) :
    escapeText c = [c] ∨ ∃ entity, escapeText c = '&' :: entity ++ [';'] := by
  unfold escapeText
  split_ifs
  · exact .inr ⟨"amp".toList, rfl⟩
  · exact .inr ⟨"nbsp".toList, rfl⟩
  · exact .inr ⟨"lt".toList, rfl⟩
  · exact .inr ⟨"gt".toList, rfl⟩
  · exact .inl rfl

theorem escapeText_ne_nil (c : Char) : escapeText c ≠ [] := by
  rcases escapeText_cases c with h | ⟨entity, h⟩ <;> simp [h]

theorem head_escapeText (c : Char) :
    (escapeText c).head? = some '&' ∨ (escapeText c).head? = some c := by
  rcases escapeText_cases c with h | ⟨entity, h⟩ <;> simp [h]

theorem getLast_escapeText (c : Char) :
    (escapeText c).getLast? = some ';' ∨ (escapeText c).getLast? = some c := by
  rcases escapeText_cases c with h | ⟨entity, h⟩
  · simp [h]
  · rw [h, List.getLast?_concat]
    exact .inl rfl

theorem escapeText_of_ne {c : Char} (hampersand : c ≠ '&') (hspace : c ≠ '\u00a0')
    (hless : c ≠ '<') (hgreater : c ≠ '>') : escapeText c = [c] := by
  simp [escapeText, hampersand, hspace, hless, hgreater]

theorem innerHTML_ne_nil {s : Str} (h : s ≠ []) : innerHTML s ≠ [] := by
  cases s with
  | nil => exact absurd rfl h
  | cons c s => simp [innerHTML, escapeText_ne_nil]

theorem stripWhitespace_cell {name : Str} (h : IsRoleName name) :
    stripWhitespace (innerHTML (cellText name)) = innerHTML name := by
  have hblank : innerHTML ('\n' :: List.replicate 32 ' ') = '\n' :: List.replicate 32 ' ' := by
    decide
  rw [cellText, innerHTML_append, hblank]
  refine stripWhitespace_append (innerHTML_ne_nil h.nonempty) (fun d hd => ?_) (fun d hd => ?_)
    (List.all_eq_true.1 (by decide))
  · cases name with
    | nil => exact absurd rfl h.nonempty
    | cons c name =>
      rw [innerHTML, List.flatMap_cons, List.head?_append_of_ne_nil _ (escapeText_ne_nil c)] at hd
      rcases head_escapeText c with hc | hc
      · cases hd.symm.trans hc
        decide
      · cases hd.symm.trans hc
        exact h.leading d rfl
  · cases name using List.reverseRecOn with
    | nil => exact absurd rfl h.nonempty
    | append_singleton front c =>
      have hlast : innerHTML [c] = escapeText c := by simp [innerHTML]
      rw [innerHTML_append, hlast, List.getLast?_append_of_ne_nil _ (escapeText_ne_nil c)] at hd
      rcases getLast_escapeText c with hc | hc
      · cases hd.symm.trans hc
        decide
      · cases hd.symm.trans hc
        exact h.trailing d List.getLast?_concat

theorem innerHTML_eq_self_iff {name : Str} (h : IsRoleName name) :
    innerHTML name = name ↔ '\u00a0' ∉ name := by
  constructor
  · intro hsame hspace
    refine h.ampersand ?_
    rw [← hsame, innerHTML, List.mem_flatMap]
    exact ⟨_, hspace, by decide⟩
  · intro hspace
    have hall : ∀ c ∈ name, escapeText c = [c] := fun c hc =>
      escapeText_of_ne (fun e => h.ampersand (e ▸ hc)) (fun e => hspace (e ▸ hc))
        (fun e => h.less (e ▸ hc)) (fun e => h.greater (e ▸ hc))
    rw [innerHTML, List.flatMap_congr hall]
    simp

def shownParts (rows : List QueueRolePermission) : List Str :=
  rows.flatMap fun row =>
    [innerHTML row.roleName, booleanText row.allowedToConsume, booleanText row.allowedToPublish]

def shownValue (rows : List QueueRolePermission) : Str := (shownParts rows).flatMap (· ++ [','])

theorem permissionParameters_eq (rows : List QueueRolePermission) :
    permissionParameters rows = rows.flatMap rowParameters :=
  List.flatMap_eq_foldl.symm

theorem encodeURIComponent_booleanText (b : Bool) :
    encodeURIComponent (booleanText b) = booleanText b := by
  cases b <;> decide

variable {decode : Str → Option Str}

theorem decode_booleanText (hdecode : IsFormDecoding decode) (b : Bool) (rest : Str) :
    decode (booleanText b ++ rest) = (decode rest).map (booleanText b ++ ·) := by
  conv_lhs => rw [← encodeURIComponent_booleanText b]
  exact hdecode.component _ rest

theorem decode_comma (hdecode : IsFormDecoding decode) (rest : Str) :
    decode (",".toList ++ rest) = (decode rest).map (",".toList ++ ·) :=
  hdecode.literal ',' rest (by decide) (by decide) (by decide)

theorem decode_rowParameters (hdecode : IsFormDecoding decode) {row : QueueRolePermission}
    (hrow : IsRoleName row.roleName) (rest : Str) :
    decode (rowParameters row ++ rest) = (decode rest).map (shownValue [row] ++ ·) := by
  simp only [rowParameters, stripWhitespace_cell hrow, List.append_assoc, hdecode.component,
    decode_booleanText hdecode, decode_comma hdecode, Option.map_map]
  congr 1
  funext t
  simp [shownValue, shownParts]

theorem shownValue_cons (row : QueueRolePermission) (rows : List QueueRolePermission) :
    shownValue (row :: rows) = shownValue [row] ++ shownValue rows := by
  simp [shownValue, shownParts]

theorem decode_permissionParameters (hdecode : IsFormDecoding decode)
    {rows : List QueueRolePermission} (hrows : ∀ row ∈ rows, IsRoleName row.roleName) :
    decode (permissionParameters rows) = some (shownValue rows) := by
  rw [permissionParameters_eq]
  induction rows with
  | nil => exact hdecode.nil
  | cons row rows ih =>
    rw [List.forall_mem_cons] at hrows
    rw [List.flatMap_cons, decode_rowParameters hdecode hrows.1, ih hrows.2, Option.map_some,
      ← shownValue_cons]

theorem mem_rowParameters {row : QueueRolePermission} {c : Char} (h : c ∈ rowParameters row) :
    c = '%' ∨ c = ',' ∨ isUnreserved c = true := by
  have hboolean : ∀ b, c ∈ booleanText b → isUnreserved c = true := by
    intro b hb
    rw [← encodeURIComponent_booleanText b] at hb
    rcases mem_encodeURIComponent hb with rfl | hc
    · cases b <;> exact absurd hb (by decide)
    · exact hc
  simp only [rowParameters, List.mem_append] at h
  rcases h with ((((h | h) | h) | h) | h) | h
  · rcases mem_encodeURIComponent h with h | h <;> simp [h]
  · simp_all
  · simp [hboolean _ h]
  · simp_all
  · simp [hboolean _ h]
  · simp_all

theorem parameterValue_permissionsBody (rows : List QueueRolePermission) :
    parameterValue "permissions".toList (permissionsBody rows) =
      some (permissionParameters rows) := by
  have hchars : ∀ c ∈ permissionParameters rows, c = '%' ∨ c = ',' ∨ isUnreserved c = true := by
    intro c hc
    rw [permissionParameters_eq] at hc
    obtain ⟨row, -, hc⟩ := List.mem_flatMap.1 hc
    exact mem_rowParameters hc
  have hseparator : '&' ∉ "permissions=".toList ++ permissionParameters rows := by
    rw [List.mem_append, not_or]
    exact ⟨by decide, fun h => absurd (hchars _ h) (by decide)⟩
  have hbody : permissionsBody rows =
      ("permissions=".toList ++ permissionParameters rows) ++ '&' :: "type=input".toList := rfl
  have hkey : splitFirst '=' ("permissions=".toList ++ permissionParameters rows) =
      ("permissions".toList, some (permissionParameters rows)) :=
    splitFirst_append (s := "permissions".toList) (by decide)
  rw [parameterValue, hbody, List.splitOn_append_cons_self_of_not_mem hseparator,
    List.findSome?_cons, hkey]
  rfl

theorem page_eq (hdecode : IsFormDecoding decode) {rows : List QueueRolePermission}
    (hrows : ∀ row ∈ rows, IsRoleName row.roleName) :
    updateQueueRolePermissionsPage decode (permissionsBody rows) =
      readPermissions (if shownValue rows ≠ [] then split ',' (shownValue rows) else []) := by
  rw [updateQueueRolePermissionsPage, getParameter, parameterValue_permissionsBody,
    Option.bind_some, decode_permissionParameters hdecode hrows]

def shownRow (row : QueueRolePermission) : QueueRolePermission :=
  { row with roleName := innerHTML row.roleName }

theorem parseBoolean_booleanText (b : Bool) : parseBoolean (booleanText b) = b := by
  cases b <;> decide

theorem readPermissions_shownParts (rows : List QueueRolePermission) :
    readPermissions (shownParts rows) = .ok (rows.map shownRow) := by
  induction rows with
  | nil => rfl
  | cons row rows ih =>
    have hparts : shownParts (row :: rows) = innerHTML row.roleName ::
        booleanText row.allowedToConsume :: booleanText row.allowedToPublish ::
          shownParts rows := rfl
    rw [hparts, readPermissions, ih, parseBoolean_booleanText, parseBoolean_booleanText]
    rfl

theorem roleName_mem_of_readPermissions {parts : List Str} {rows : List QueueRolePermission}
    (h : readPermissions parts = .ok rows) : ∀ row ∈ rows, row.roleName ∈ parts := by
  induction parts using readPermissions.induct generalizing rows with
  | case1 =>
    cases h
    simp
  | case2 role con pub rest ih =>
    rw [readPermissions] at h
    obtain ⟨others, hrest, hcons⟩ := FailingFilters.ok_of_bind h
    cases hcons
    intro row hrow
    rcases List.mem_cons.1 hrow with rfl | hrow
    · exact List.mem_cons_self
    · simp [ih hrest row hrow]
  | case3 parts hnil hthree => simp [readPermissions] at h

theorem comma_mem_innerHTML_iff {name : Str} : ',' ∈ innerHTML name ↔ ',' ∈ name := by
  rw [innerHTML, List.mem_flatMap]
  constructor
  · rintro ⟨c, hc, hcomma⟩
    unfold escapeText at hcomma
    split_ifs at hcomma <;> simp at hcomma
    exact hcomma ▸ hc
  · intro h
    exact ⟨',', h, by decide⟩

theorem comma_notMem_shownParts {rows : List QueueRolePermission}
    (h : ∀ row ∈ rows, ',' ∉ row.roleName) : ∀ part ∈ shownParts rows, ',' ∉ part := by
  intro part hpart
  have hboolean : ∀ b, ',' ∉ booleanText b := by decide
  obtain ⟨row, hrow, hpart⟩ := List.mem_flatMap.1 hpart
  simp only [List.mem_cons, List.not_mem_nil, or_false] at hpart
  rcases hpart with rfl | rfl | rfl
  · exact comma_mem_innerHTML_iff.not.2 (h row hrow)
  · exact hboolean _
  · exact hboolean _

theorem split_shownValue {rows : List QueueRolePermission} (hne : rows ≠ [])
    (h : ∀ row ∈ rows, ',' ∉ row.roleName) : split ',' (shownValue rows) = shownParts rows := by
  have hparts := comma_notMem_shownParts h
  cases rows using List.reverseRecOn with
  | nil => exact absurd rfl hne
  | append_singleton front row =>
    have hlast : shownParts (front ++ [row]) = (shownParts front ++
        [innerHTML row.roleName, booleanText row.allowedToConsume]) ++
          [booleanText row.allowedToPublish] := by
      simp [shownParts]
    have hboolean : booleanText row.allowedToPublish ≠ [] := by
      cases row.allowedToPublish <;> decide
    rw [hlast] at hparts
    rw [shownValue, hlast, split_terminated hparts hboolean]

theorem page_of_commaless (hdecode : IsFormDecoding decode) {rows : List QueueRolePermission}
    (hrows : ∀ row ∈ rows, IsRoleName row.roleName) (h : ∀ row ∈ rows, ',' ∉ row.roleName) :
    updateQueueRolePermissionsPage decode (permissionsBody rows) = .ok (rows.map shownRow) := by
  rw [page_eq hdecode hrows]
  by_cases hne : rows = []
  · subst hne
    rfl
  · have hsplit := split_shownValue hne h
    have hvalue : shownValue rows ≠ [] := by
      cases rows with
      | nil => exact absurd rfl hne
      | cons row rows =>
        rw [shownValue_cons]
        simp [shownValue, shownParts]
    rw [if_pos hvalue, hsplit, readPermissions_shownParts]

theorem commaless_of_page (hdecode : IsFormDecoding decode) {rows : List QueueRolePermission}
    (hrows : ∀ row ∈ rows, IsRoleName row.roleName)
    (h : updateQueueRolePermissionsPage decode (permissionsBody rows) = .ok rows) :
    ∀ row ∈ rows, ',' ∉ row.roleName := by
  intro row hrow
  rw [page_eq hdecode hrows] at h
  have hpart := roleName_mem_of_readPermissions h row hrow
  split at hpart
  · exact notMem_of_mem_split hpart
  · exact absurd hpart List.not_mem_nil

theorem page_eq_ok_iff (hdecode : IsFormDecoding decode) {rows : List QueueRolePermission}
    (hrows : ∀ row ∈ rows, IsRoleName row.roleName) :
    updateQueueRolePermissionsPage decode (permissionsBody rows) = .ok rows ↔
      ∀ row ∈ rows, ',' ∉ row.roleName ∧ '\u00a0' ∉ row.roleName := by
  constructor
  · intro h
    have hcomma := commaless_of_page hdecode hrows h
    rw [page_of_commaless hdecode hrows hcomma] at h
    have hsame : rows.map shownRow = rows.map id := by rw [List.map_id, Except.ok.inj h]
    intro row hrow
    refine ⟨hcomma row hrow, (innerHTML_eq_self_iff (hrows row hrow)).1 ?_⟩
    exact congrArg QueueRolePermission.roleName (List.map_inj_left.1 hsame row hrow)
  · intro h
    have hsame : rows.map shownRow = rows.map id :=
      List.map_congr_left fun row hrow => by
        rw [shownRow, (innerHTML_eq_self_iff (hrows row hrow)).2 (h row hrow).2]
        rfl
    rw [page_of_commaless hdecode hrows fun row hrow => (h row hrow).1, hsame, List.map_id]

/-- The page reads back the table just when no role name contains a comma or a no-break space. -/
theorem decodedAsEncoded_iff (hdecode : IsFormDecoding decode) {rows : List QueueRolePermission}
    (hrows : ∀ row ∈ rows, IsRoleName row.roleName) :
    (updateQueueRolePermissionsPage decode (updatePermissions rows) = .ok rows ∧
      updateQueueRolePermissionsPage decode (addPermissions rows) = .ok rows) ↔
      ∀ row ∈ rows, ',' ∉ row.roleName ∧ '\u00a0' ∉ row.roleName := by
  rw [updatePermissions, addPermissions, and_self]
  exact page_eq_ok_iff hdecode hrows

theorem isRoleName_admin : IsRoleName "admin".toList where
  nonempty := by decide
  leading := by rintro c ⟨⟩; decide
  trailing := by rintro c ⟨⟩; decide
  ampersand := by decide
  less := by decide
  greater := by decide

theorem isRoleName_clerk : IsRoleName "order clerk+".toList where
  nonempty := by decide
  leading := by rintro c ⟨⟩; decide
  trailing := by rintro c ⟨⟩; decide
  ampersand := by decide
  less := by decide
  greater := by decide

def twoRoles : List QueueRolePermission :=
  [⟨"admin".toList, true, false⟩, ⟨"order clerk+".toList, false, true⟩]

theorem decodedAsEncoded_admin :
    (updateQueueRolePermissionsPage formDecode (updatePermissions twoRoles) = .ok twoRoles ∧
      updateQueueRolePermissionsPage formDecode (addPermissions twoRoles) = .ok twoRoles) ↔
      ∀ row ∈ twoRoles, ',' ∉ row.roleName ∧ '\u00a0' ∉ row.roleName :=
  decodedAsEncoded_iff formDecode_isFormDecoding
    (by simpa [twoRoles] using ⟨isRoleName_admin, isRoleName_clerk⟩)

/-- The role `a,b` comes apart in two, and the part behind its comma is taken for its first flag;
the no-break space in the other role's name arrives as an entity. -/
theorem not_decodedAsEncoded_comma :
    IsRoleName "a,b".toList ∧ IsRoleName "a\u00a0b".toList ∧
      updateQueueRolePermissionsPage formDecode (updatePermissions [⟨"a,b".toList, true, false⟩]) =
        .error arrayIndexOutOfBoundsException ∧
      updateQueueRolePermissionsPage formDecode
        (updatePermissions [⟨"a\u00a0b".toList, true, false⟩]) =
          .ok [⟨"a&nbsp;b".toList, true, false⟩] := by
  have hcomma : IsRoleName "a,b".toList :=
    ⟨by decide, by rintro c ⟨⟩; decide, by rintro c ⟨⟩; decide, by decide, by decide, by decide⟩
  have hspace : IsRoleName "a\u00a0b".toList :=
    ⟨by decide, by rintro c ⟨⟩; decide, by rintro c ⟨⟩; decide, by decide, by decide, by decide⟩
  refine ⟨hcomma, hspace, ?_, ?_⟩
  · rw [updatePermissions, page_eq formDecode_isFormDecoding (by simpa using hcomma)]
    rfl
  · rw [updatePermissions, page_eq formDecode_isFormDecoding (by simpa using hspace)]
    rfl

end CarbonMessaging.RolePermissionForm
