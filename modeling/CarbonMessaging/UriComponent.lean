import Mathlib.Tactic

/-! Percent-encoding of text: what `encodeURIComponent` writes and how a form value is read back.
Every character outside the unreserved ones becomes the bytes of its UTF-8 form, each as `%XX`. -/

namespace CarbonMessaging.UriComponent

abbrev Text := List Char

def isUnreserved (c : Char) : Bool :=
  c.isAlphanum || c == '-' || c == '_' || c == '.' || c == '!' || c == '~' || c == '*' ||
    c == '\'' || c == '(' || c == ')'

def hexDigit (n : Nat) : Char := Char.ofNat (if n < 10 then 48 + n else 55 + n)

def hexValue (c : Char) : Option Nat :=
  if c.isDigit then some (c.toNat - 48)
  else if 'A' ≤ c ∧ c ≤ 'F' then some (c.toNat - 55)
  else if 'a' ≤ c ∧ c ≤ 'f' then some (c.toNat - 87)
  else none

def escapeByte (b : UInt8) : Text := ['%', hexDigit (b.toNat / 16), hexDigit (b.toNat % 16)]

def encodeChar (c : Char) : Text :=
  if isUnreserved c then [c] else (String.utf8EncodeChar c).flatMap escapeByte

def encodeURIComponent (s : Text) : Text := s.flatMap encodeChar

/-- The bytes that a form value stands for; a `%` without two digits behind it is malformed. -/
def unescape : Text → Option (List UInt8)
  | [] => some []
  | c :: rest =>
    if c = '%' then
      match rest with
      | high :: low :: rest => do
        let high ← hexValue high
        let low ← hexValue low
        let bytes ← unescape rest
        pure (UInt8.ofNat (16 * high + low) :: bytes)
      | _ => none
    else do
      let bytes ← unescape rest
      pure ((if c = '+' then [0x20] else String.utf8EncodeChar c) ++ bytes)

def formDecode (s : Text) : Option Text := do
  let bytes ← unescape s
  let text ← bytes.toByteArray.utf8Decode?
  pure text.toList

theorem hexValue_hexDigit : ∀ n < 16, hexValue (hexDigit n) = some n := by decide

theorem isUnreserved_hexDigit : ∀ n < 16, isUnreserved (hexDigit n) = true := by decide

theorem mem_escapeByte {b : UInt8} {c : Char} (h : c ∈ escapeByte b) :
    c = '%' ∨ isUnreserved c = true := by
  have hbyte := b.toNat_lt
  simp only [escapeByte, List.mem_cons, List.not_mem_nil, or_false] at h
  rcases h with rfl | rfl | rfl
  · exact .inl rfl
  · exact .inr (isUnreserved_hexDigit _ (by omega))
  · exact .inr (isUnreserved_hexDigit _ (by omega))

theorem mem_encodeURIComponent {s : Text} {c : Char} (h : c ∈ encodeURIComponent s) :
    c = '%' ∨ isUnreserved c = true := by
  obtain ⟨d, -, hd⟩ := List.mem_flatMap.1 h
  rw [encodeChar] at hd
  split at hd
  · rename_i hunreserved
    rw [List.mem_singleton] at hd
    exact .inr (hd ▸ hunreserved)
  · obtain ⟨b, -, hb⟩ := List.mem_flatMap.1 hd
    exact mem_escapeByte hb

theorem unescape_escapeByte (b : UInt8) (rest : Text) :
    unescape (escapeByte b ++ rest) = (unescape rest).map (b :: ·) := by
  have hbyte := b.toNat_lt
  have hvalue : UInt8.ofNat (16 * (b.toNat / 16) + b.toNat % 16) = b := by
    rw [Nat.div_add_mod]
    exact UInt8.ofNat_toNat
  simp only [escapeByte, List.cons_append, List.nil_append]
  rw [unescape]
  simp only [if_true, hexValue_hexDigit _ (show b.toNat / 16 < 16 by omega),
    hexValue_hexDigit _ (show b.toNat % 16 < 16 by omega), Option.bind_eq_bind, Option.bind_some,
    hvalue]
  cases unescape rest <;> rfl

theorem unescape_escapeBytes (bytes : List UInt8) (rest : Text) :
    unescape (bytes.flatMap escapeByte ++ rest) = (unescape rest).map (bytes ++ ·) := by
  induction bytes with
  | nil => simp
  | cons b bytes ih =>
    rw [List.flatMap_cons, List.append_assoc, unescape_escapeByte, ih, Option.map_map]
    rfl

theorem unescape_literal {c : Char} (hpercent : c ≠ '%') (hplus : c ≠ '+') (rest : Text) :
    unescape (c :: rest) = (unescape rest).map (String.utf8EncodeChar c ++ ·) := by
  conv_lhs => unfold unescape
  simp only [if_neg hpercent, if_neg hplus]
  cases unescape rest <;> rfl

theorem ne_of_isUnreserved {c : Char} (h : isUnreserved c = true) : c ≠ '%' ∧ c ≠ '+' := by
  constructor <;> rintro rfl <;> exact absurd h (by decide)

theorem unescape_encodeChar (c : Char) (rest : Text) :
    unescape (encodeChar c ++ rest) = (unescape rest).map (String.utf8EncodeChar c ++ ·) := by
  rw [encodeChar]
  split
  · rename_i h
    exact unescape_literal (ne_of_isUnreserved h).1 (ne_of_isUnreserved h).2 rest
  · exact unescape_escapeBytes _ rest

theorem utf8Decode_char_append (c : Char) (bytes : List UInt8) :
    (String.utf8EncodeChar c ++ bytes).toByteArray.utf8Decode? =
      bytes.toByteArray.utf8Decode?.map (#[c] ++ ·) := by
  have hchar : (String.utf8EncodeChar c).toByteArray = [c].utf8Encode := by
    simp [List.utf8Encode]
  rw [List.toByteArray_append, hchar, ByteArray.utf8Decode?_utf8Encode_singleton_append]

theorem formDecode_of_unescape {c : Char} {s rest : Text}
    (h : unescape s = (unescape rest).map (String.utf8EncodeChar c ++ ·)) :
    formDecode s = (formDecode rest).map (c :: ·) := by
  rw [formDecode, formDecode, h]
  cases unescape rest with
  | none => rfl
  | some bytes =>
    simp only [Option.map_some, Option.bind_eq_bind, Option.bind_some, utf8Decode_char_append]
    cases bytes.toByteArray.utf8Decode? <;> simp

/-- How a form value is read: what `encodeURIComponent` wrote becomes the text again, and every
other ASCII character but `%` and `+` stands for itself. -/
structure IsFormDecoding (decode : Text → Option Text) : Prop where
  nil : decode [] = some []
  component (s rest : Text) :
    decode (encodeURIComponent s ++ rest) = (decode rest).map (s ++ ·)
  literal (c : Char) (rest : Text) :
    c.toNat < 128 → c ≠ '%' → c ≠ '+' → decode (c :: rest) = (decode rest).map (c :: ·)

theorem formDecode_isFormDecoding : IsFormDecoding formDecode where
  nil := by simp [formDecode, unescape]
  component s rest := by
    induction s with
    | nil => simp [encodeURIComponent]
    | cons c s ih =>
      have hhead := formDecode_of_unescape (unescape_encodeChar c (encodeURIComponent s ++ rest))
      rw [encodeURIComponent, List.flatMap_cons, List.append_assoc, ← encodeURIComponent, hhead,
        ih, Option.map_map]
      rfl
  literal c rest _ hpercent hplus := formDecode_of_unescape (unescape_literal hpercent hplus rest)

theorem decode_literal {decode : Text → Option Text} (hdecode : IsFormDecoding decode) {s : Text}
    (h : ∀ c ∈ s, c.toNat < 128 ∧ c ≠ '%' ∧ c ≠ '+') : decode s = some s := by
  induction s with
  | nil => exact hdecode.nil
  | cons c s ih =>
    obtain ⟨hascii, hpercent, hplus⟩ := h c List.mem_cons_self
    rw [hdecode.literal c s hascii hpercent hplus,
      ih fun d hd => h d (List.mem_cons_of_mem _ hd)]
    rfl

example : encodeURIComponent "a,b é".toList = "a%2Cb%20%C3%A9".toList := by decide

end CarbonMessaging.UriComponent
