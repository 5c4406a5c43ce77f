import Mathlib.Data.List.DropRight
import Mathlib.Data.List.Infix
import Mathlib.Tactic

/-! Java strings and ints, as far as separator-based names and decimal counters need them.
A string is the list of its characters; every position used below comes from the search for
an ASCII separator or from the length of a prefix, so counting code points agrees with Java's
UTF-16 units. No locale and no regular expression enters. -/

namespace CarbonMessaging.JavaLang

abbrev Str := List Char

/-- `s.indexOf(c) > -1 ? s.substring(0, s.indexOf(c)) : s` -/
def upTo (c : Char) (s : Str) : Str := s.takeWhile (· ≠ c)

/-- `s.substring(s.indexOf(c) + 1)`, which is all of `s` when `c` is missing. -/
def after (c : Char) (s : Str) : Str :=
  if c ∈ s then (s.dropWhile (· ≠ c)).tail else s

def splitFirst (c : Char) (s : Str) : Str × Option Str :=
  (upTo c s, if c ∈ s then some (after c s) else none)

/-- `s.split(String.valueOf(c))`: parts at the end that are empty are not returned, but a string
without `c` is, even the empty one. -/
def split (c : Char) (s : Str) : List Str :=
  if c ∈ s then (s.splitOn c).rdropWhile List.isEmpty else [s]

def startsWith (s start : Str) : Bool := start.isPrefixOf s

def contains (s part : Str) : Bool := decide (part <:+: s)

/-- `s.substring(begin)`; `none` is the StringIndexOutOfBoundsException. -/
def substring (s : Str) (start : Nat) : Option Str :=
  if start ≤ s.length then some (s.drop start) else none

def substringTo (s : Str) (start stop : Int) : Option Str :=
  if 0 ≤ start ∧ start ≤ stop ∧ stop ≤ s.length then
    some ((s.take stop.toNat).drop start.toNat)
  else none

def replaceChar (old new : Char) (s : Str) : Str := s.map fun c => if c = old then new else c

/-- `s.replace(part, "")` for a nonempty part: occurrences are taken from the left and do not
overlap. `skip` characters of the occurrence found last are still to be dropped. -/
def removeAllFrom (part : Str) : (skip : Nat) → Str → Str
  | _, [] => []
  | skip + 1, _ :: s => removeAllFrom part skip s
  | 0, c :: s =>
    if part.isPrefixOf (c :: s) then removeAllFrom part (part.length - 1) s
    else c :: removeAllFrom part 0 s

def removeAll (part s : Str) : Str := removeAllFrom part 0 s

def trim (s : Str) : Str := (s.dropWhile (· ≤ ' ')).rdropWhile (· ≤ ' ')

/-- The characters outside ASCII that Java folds to an ASCII letter are the dotless and the
dotted i, the long s and the Kelvin sign. One side of every comparison is an ASCII literal,
so the folding of other letters is never seen. -/
def foldCase (c : Char) : Char :=
  if c = Char.ofNat 0x131 ∨ c = Char.ofNat 0x130 then 'i'
  else if c = Char.ofNat 0x17F then 's'
  else if c = Char.ofNat 0x212A then 'k'
  else c.toLower

def equalsIgnoreCase (s t : Str) : Bool := decide (s.map foldCase = t.map foldCase)

theorem substringTo_start {s : Str} {stop : Int} (h : 0 ≤ stop) (hstop : stop ≤ s.length) :
    substringTo s 0 stop = some (s.take stop.toNat) := by
  rw [substringTo, if_pos ⟨le_rfl, h, hstop⟩, Int.toNat_zero, List.drop_zero]

theorem upTo_of_notMem {c : Char} {s : Str} (h : c ∉ s) : upTo c s = s := by
  rw [upTo, List.takeWhile_eq_self_iff]
  intro a ha
  have hne : a ≠ c := fun e => h (e ▸ ha)
  simpa using hne

theorem notMem_upTo (c : Char) (s : Str) : c ∉ upTo c s := by
  intro h
  have := List.mem_takeWhile_imp h
  simp at this

theorem upTo_isInitial (c : Char) (s : Str) : upTo c s <+: s := List.takeWhile_prefix _

theorem mem_of_mem_upTo {c d : Char} {s : Str} (h : d ∈ upTo c s) : d ∈ s :=
  (upTo_isInitial c s).subset h

theorem upTo_append_cons (c : Char) (s t : Str) : upTo c (s ++ c :: t) = upTo c s := by
  induction s with
  | nil => simp [upTo]
  | cons a s ih =>
    rw [upTo, upTo, List.cons_append, List.takeWhile_cons, List.takeWhile_cons]
    split
    · exact congrArg (a :: ·) ih
    · rfl

theorem upTo_append_of_notMem {c : Char} {s : Str} (h : c ∉ s) (t : Str) :
    upTo c (s ++ t) = s ++ upTo c t :=
  List.takeWhile_append_of_pos fun x hx => by
    have hne : x ≠ c := fun e => h (e ▸ hx)
    simpa using hne

theorem after_of_notMem {c : Char} {s : Str} (h : c ∉ s) : after c s = s := if_neg h

theorem after_append {c : Char} {s t : Str} (h : c ∉ s) : after c (s ++ c :: t) = t := by
  have hd : (s ++ c :: t).dropWhile (· ≠ c) = c :: t := by
    rw [List.dropWhile_append_of_pos]
    · simp
    · intro a ha
      have hne : a ≠ c := fun e => h (e ▸ ha)
      simpa using hne
  rw [after, if_pos (by simp), hd, List.tail_cons]

theorem upTo_append_after {c : Char} {s : Str} (h : c ∈ s) : upTo c s ++ c :: after c s = s := by
  induction s with
  | nil => cases h
  | cons x s ih =>
    by_cases hx : x = c
    · simp [upTo, after, hx]
    · have htail : c ∈ s := by simpa [Ne.symm hx] using h
      have hsame : upTo c (x :: s) = x :: upTo c s := by simp [upTo, hx]
      have hafter : after c (x :: s) = after c s := by simp [after, htail, hx]
      rw [hsame, hafter, List.cons_append, ih htail]

theorem upTo_append_of_mem {c : Char} {s : Str} (h : c ∈ s) (t : Str) :
    upTo c (s ++ t) = upTo c s := by
  conv_lhs => rw [← upTo_append_after h]
  rw [List.append_assoc, List.cons_append, upTo_append_cons, upTo_of_notMem (notMem_upTo c s)]

theorem upTo_drop {c : Char} {s : Str} {n : Nat} (h : n ≤ (upTo c s).length) :
    upTo c (s.drop n) = (upTo c s).drop n := by
  induction n generalizing s with
  | zero => rfl
  | succ n ih =>
    cases s with
    | nil => rfl
    | cons x s =>
      by_cases hx : x = c
      · simp [upTo, hx] at h
      · have hsame : upTo c (x :: s) = x :: upTo c s := by simp [upTo, hx]
        rw [hsame, List.length_cons] at h
        rw [hsame, List.drop_succ_cons, List.drop_succ_cons]
        exact ih (by omega)

theorem mem_drop_of_le_upTo {c : Char} {s : Str} {n : Nat} (h : n ≤ (upTo c s).length) :
    c ∈ s.drop n ↔ c ∈ s := by
  refine ⟨List.mem_of_mem_drop, fun hc => ?_⟩
  have hsplit : s.drop n = (upTo c s).drop n ++ c :: after c s := by
    conv_lhs => rw [← upTo_append_after hc]
    exact List.drop_append_of_le_length h
  simp [hsplit]

theorem splitFirst_append {c : Char} {s t : Str} (h : c ∉ s) :
    splitFirst c (s ++ c :: t) = (s, some t) := by
  rw [splitFirst, if_pos (by simp), after_append h, upTo_append_cons, upTo_of_notMem h]

theorem splitFirst_of_notMem {c : Char} {s : Str} (h : c ∉ s) : splitFirst c s = (s, none) := by
  rw [splitFirst, if_neg h, upTo_of_notMem h]

theorem after_suffix (c : Char) (s : Str) : after c s <:+ s := by
  unfold after
  split
  · exact (List.tail_suffix _).trans (List.dropWhile_suffix _)
  · exact List.suffix_rfl

theorem mem_of_mem_after {c d : Char} {s : Str} (h : d ∈ after c s) : d ∈ s :=
  (after_suffix c s).subset h

theorem splitOn_of_mem {c : Char} {s : Str} (h : c ∈ s) :
    s.splitOn c = upTo c s :: (after c s).splitOn c := by
  conv_lhs => rw [← upTo_append_after h]
  exact List.splitOn_append_cons_self_of_not_mem (notMem_upTo c s) _

theorem splitOn_eq_cons (c : Char) (s : Str) : ∃ rest, s.splitOn c = upTo c s :: rest := by
  by_cases h : c ∈ s
  · exact ⟨_, splitOn_of_mem h⟩
  · exact ⟨[], by rw [List.splitOn_eq_singleton h, upTo_of_notMem h]⟩

theorem splitOn_all_empty_iff (c : Char) (s : Str) :
    (∀ part ∈ s.splitOn c, part.isEmpty = true) ↔ ∀ x ∈ s, x = c := by
  induction s with
  | nil => simp
  | cons x s ih =>
    rw [List.splitOn_cons_eq_if_modifyHead, List.forall_mem_cons, ← ih]
    by_cases hx : x = c
    · simp [hx]
    · obtain ⟨rest, hrest⟩ := splitOn_eq_cons c s
      simp [hx, hrest]

theorem rdropWhile_cons {α : Type} (p : α → Bool) (a : α) (l : List α) :
    (a :: l).rdropWhile p =
      if l.rdropWhile p = [] then [a].rdropWhile p else a :: l.rdropWhile p := by
  rw [List.rdropWhile, List.reverse_cons, List.dropWhile_append, List.rdropWhile]
  by_cases h : l.reverse.dropWhile p = []
  · simp [h, List.rdropWhile]
  · simp [h]

theorem split_second_eq_some_iff {c : Char} {s part : Str} : (split c s)[1]? = some part ↔
    c ∈ s ∧ (∃ x ∈ after c s, x ≠ c) ∧ upTo c (after c s) = part := by
  by_cases h : c ∈ s
  · obtain ⟨rest, hrest⟩ := splitOn_eq_cons c (after c s)
    have hempty := List.rdropWhile_eq_nil_iff.trans (splitOn_all_empty_iff c (after c s))
    rw [split, if_pos h, splitOn_of_mem h, rdropWhile_cons]
    by_cases hall : ∀ x ∈ after c s, x = c
    · rw [if_pos (hempty.2 hall), List.rdropWhile_singleton]
      refine iff_of_false ?_ fun ⟨_, ⟨x, hx, hne⟩, _⟩ => hne (hall x hx)
      split <;> exact fun e => nomatch e
    · have hkept : ((after c s).splitOn c).rdropWhile List.isEmpty ≠ [] :=
        fun e => hall (hempty.1 e)
      have hhead := (List.rdropWhile_prefix List.isEmpty ((after c s).splitOn c)).head hkept
      have hother : ∃ x ∈ after c s, x ≠ c := by simpa using hall
      rw [if_neg hkept, List.getElem?_cons_succ, ← List.head?_eq_getElem?,
        List.head?_eq_some_head hkept, hhead]
      simp [hrest, h, hother]
  · rw [split, if_neg h]
    exact iff_of_false (fun e => nomatch e) fun hc => h hc.1

theorem notMem_of_mem_splitOn {c : Char} {s part : Str} (h : part ∈ s.splitOn c) : c ∉ part := by
  induction s generalizing part with
  | nil =>
    rw [List.splitOn_nil, List.mem_singleton] at h
    simp [h]
  | cons x s ih =>
    obtain ⟨rest, hrest⟩ := splitOn_eq_cons c s
    rw [List.splitOn_cons_eq_if_modifyHead] at h
    split at h
    · rcases List.mem_cons.1 h with rfl | h
      · simp
      · exact ih h
    · rename_i hx
      rw [hrest, List.modifyHead_cons] at h
      rcases List.mem_cons.1 h with rfl | h
      · have hne : x ≠ c := by simpa using hx
        simp [hne.symm, notMem_upTo]
      · exact ih (by simp [hrest, h])

theorem notMem_of_mem_split {c : Char} {s part : Str} (h : part ∈ split c s) : c ∉ part := by
  rw [split] at h
  split at h
  · exact notMem_of_mem_splitOn ((List.rdropWhile_prefix _ _).subset h)
  · rename_i hc
    rwa [List.mem_singleton.1 h]

theorem splitOn_terminated {c : Char} {parts : List Str} (h : ∀ part ∈ parts, c ∉ part) :
    (parts.flatMap (· ++ [c])).splitOn c = parts ++ [[]] := by
  induction parts with
  | nil => rw [List.flatMap_nil, List.splitOn_nil, List.nil_append]
  | cons part parts ih =>
    rw [List.forall_mem_cons] at h
    rw [List.flatMap_cons, List.append_assoc, List.singleton_append,
      List.splitOn_append_cons_self_of_not_mem h.1, ih h.2, List.cons_append]

theorem split_terminated {c : Char} {parts : List Str} {last : Str}
    (h : ∀ part ∈ parts ++ [last], c ∉ part) (hlast : last ≠ []) :
    split c ((parts ++ [last]).flatMap (· ++ [c])) = parts ++ [last] := by
  have hmem : c ∈ (parts ++ [last]).flatMap (· ++ [c]) := by simp
  rw [split, if_pos hmem, splitOn_terminated h, List.rdropWhile_concat_pos _ _ _ rfl,
    List.rdropWhile_concat_neg _ _ _ (by simpa using hlast)]

theorem startsWith_iff {s start : Str} : startsWith s start = true ↔ start <+: s :=
  List.isPrefixOf_iff_prefix

theorem contains_iff {s part : Str} : contains s part = true ↔ part <:+: s := by
  simp [contains]

theorem contains_slash_iff {s : Str} : contains s "/".toList = true ↔ '/' ∈ s :=
  contains_iff.trans (List.singleton_infix_iff '/' s)

theorem startsWith_upTo {c : Char} {s start : Str} :
    startsWith (upTo c s) start = true ↔ c ∉ start ∧ startsWith s start = true := by
  rw [startsWith_iff, startsWith_iff]
  constructor
  · intro h
    exact ⟨fun hc => notMem_upTo c s (h.subset hc), h.trans (upTo_isInitial c s)⟩
  · rintro ⟨hc, rest, rfl⟩
    rw [upTo_append_of_notMem hc]
    exact List.prefix_append _ _

theorem startsWith_upTo_eq_iff {c : Char} {s start : Str} :
    startsWith (upTo c s) start = startsWith s start ↔
      (c ∈ start → startsWith s start = false) := by
  rw [Bool.eq_iff_iff, startsWith_upTo, ← Bool.not_eq_true]
  by_cases hc : c ∈ start <;> simp [hc]

theorem replaceChar_of_notMem {a b : Char} {s : Str} (h : a ∉ s) : replaceChar a b s = s := by
  rw [replaceChar]
  conv_rhs => rw [← List.map_id s]
  refine List.map_congr_left fun c hc => ?_
  have hne : c ≠ a := fun e => h (e ▸ hc)
  simp [hne]

theorem notMem_replaceChar {a b : Char} (hab : a ≠ b) (s : Str) : a ∉ replaceChar a b s := by
  intro h
  obtain ⟨c, -, hc⟩ := List.mem_map.1 h
  split at hc
  · exact hab hc.symm
  · exact absurd hc ‹_›

theorem replaceChar_eq_self_iff {a b : Char} {s : Str} (hab : a ≠ b) :
    replaceChar a b s = s ↔ a ∉ s :=
  ⟨fun h => h ▸ notMem_replaceChar hab s, replaceChar_of_notMem⟩

@[simp] theorem replaceChar_append (a b : Char) (s t : Str) :
    replaceChar a b (s ++ t) = replaceChar a b s ++ replaceChar a b t := List.map_append

theorem replaceChar_comm {a b c d : Char} (hac : a ≠ c) (had : a ≠ d) (hbc : b ≠ c) (s : Str) :
    replaceChar a b (replaceChar c d s) = replaceChar c d (replaceChar a b s) := by
  rw [replaceChar, replaceChar, replaceChar, replaceChar, List.map_map, List.map_map]
  refine List.map_congr_left fun x _ => ?_
  by_cases ha : x = a
  · simp [ha, hac, hbc]
  · by_cases hc : x = c
    · simp [hc, hac.symm, had.symm]
    · simp [ha, hc]

theorem mem_replaceChar_of_ne {a b c : Char} (ha : c ≠ a) (hb : c ≠ b) {s : Str} :
    c ∈ replaceChar a b s ↔ c ∈ s := by
  rw [replaceChar, List.mem_map]
  constructor
  · rintro ⟨x, hx, heq⟩
    split at heq
    · exact absurd heq.symm hb
    · exact heq ▸ hx
  · intro hc
    exact ⟨c, hc, if_neg ha⟩

theorem upTo_replaceChar {a b c : Char} (ha : c ≠ a) (hb : c ≠ b) (s : Str) :
    upTo c (replaceChar a b s) = replaceChar a b (upTo c s) := by
  rw [upTo, replaceChar, List.takeWhile_map, upTo, replaceChar]
  congr 2
  funext x
  by_cases hx : x = a
  · simp [hx, ha.symm, hb.symm]
  · simp [hx]

@[simp] theorem length_replaceChar (a b : Char) (s : Str) :
    (replaceChar a b s).length = s.length := List.length_map _

def trimEnd (s : Str) : Str := s.rdropWhile (· ≤ ' ')

def endsBlank (s : Str) : Bool := s.getLast?.any (· ≤ ' ')

theorem trimEnd_eq_self_iff {s : Str} : trimEnd s = s ↔ endsBlank s = false := by
  rw [trimEnd, List.rdropWhile_eq_self_iff, endsBlank]
  cases hs : s.getLast? with
  | none =>
    rw [List.getLast?_eq_none_iff] at hs
    simp [hs]
  | some c =>
    obtain ⟨hne, hlast⟩ := List.getLast?_eq_some_iff.1 hs
    simp [hlast]

theorem not_le_head_of_trim {c : Char} {s : Str} (h : trim (c :: s) = c :: s) : ¬c ≤ ' ' := by
  intro hc
  have hdrop : (c :: s).dropWhile (· ≤ ' ') = s.dropWhile (· ≤ ' ') := by simp [hc]
  have hlen := congrArg List.length h
  rw [trim, hdrop] at hlen
  have htrim := (List.rdropWhile_prefix (· ≤ ' ') (s.dropWhile (· ≤ ' '))).length_le
  have hsuffix := (List.dropWhile_suffix (· ≤ ' ') (l := s)).length_le
  rw [List.length_cons] at hlen
  omega

theorem trimEnd_append {c : Char} (hc : ¬c ≤ ' ') (s t : Str) :
    trimEnd (s ++ c :: t) = s ++ c :: trimEnd t := by
  induction t using List.reverseRecOn with
  | nil => exact List.rdropWhile_concat_neg _ _ _ (by simpa using hc)
  | append_singleton t x ih =>
    have hassoc : s ++ c :: (t ++ [x]) = (s ++ c :: t) ++ [x] := by simp
    rw [hassoc, trimEnd, trimEnd, List.rdropWhile_concat, List.rdropWhile_concat]
    by_cases hx : x ≤ ' '
    · simpa [hx, trimEnd] using ih
    · simp [hx]

theorem trim_append {c : Char} {s t : Str} (hs : trim s = s) (hne : s ≠ []) (hc : ¬c ≤ ' ') :
    trim (s ++ c :: t) = s ++ c :: trimEnd t := by
  cases s with
  | nil => exact absurd rfl hne
  | cons head s =>
    have hhead := not_le_head_of_trim hs
    have hkeep : (head :: s ++ c :: t).dropWhile (· ≤ ' ') = head :: s ++ c :: t := by
      simp [hhead]
    rw [trim, hkeep]
    exact trimEnd_append hc (head :: s) t

/-- The value of two's-complement `int` arithmetic on an exact result. -/
def wrapInt (n : Int) : Int := n.bmod (2 ^ 32)

theorem wrapInt_bounds (n : Int) : -2 ^ 31 ≤ wrapInt n ∧ wrapInt n < 2 ^ 31 := by
  rw [wrapInt, Int.bmod_def]
  split <;> omega

theorem wrapInt_of_bounds {a : Int} (ha : -2 ^ 31 ≤ a ∧ a < 2 ^ 31) : wrapInt a = a := by
  rw [wrapInt, Int.bmod_def]
  split <;> omega

theorem wrapInt_add_inj {c a b : Int} (ha : -2 ^ 31 ≤ a ∧ a < 2 ^ 31)
    (hb : -2 ^ 31 ≤ b ∧ b < 2 ^ 31) : wrapInt (a + c) = wrapInt (b + c) ↔ a = b := by
  rw [wrapInt, wrapInt, Int.bmod_def, Int.bmod_def]
  split <;> split <;> omega

def intToString : Int → Str
  | .ofNat n => Nat.toDigits 10 n
  | .negSucc n => '-' :: Nat.toDigits 10 (n + 1)

def parseDigits (s : Str) : Option Nat :=
  if s ≠ [] ∧ s.all Char.isDigit then some (Nat.ofDigitChars 10 s 0) else none

/-- `Integer.parseInt` on ASCII digits; `none` is the NumberFormatException. -/
def parseInt : Str → Option Int
  | '-' :: s => (parseDigits s).bind fun n => if n ≤ 2 ^ 31 then some (-(n : Int)) else none
  | '+' :: s => (parseDigits s).bind fun n => if n < 2 ^ 31 then some (n : Int) else none
  | s => (parseDigits s).bind fun n => if n < 2 ^ 31 then some (n : Int) else none

theorem parseDigits_toDigits (n : Nat) : parseDigits (Nat.toDigits 10 n) = some n := by
  have hd : (Nat.toDigits 10 n).all Char.isDigit = true :=
    List.all_eq_true.2 fun _ hc => Nat.isDigit_of_mem_toDigits (by decide) (by decide) hc
  rw [parseDigits, if_pos ⟨Nat.toDigits_ne_nil, hd⟩, Nat.ofDigitChars_ten_toDigits]

theorem parseInt_intToString {n : Int} (lower : -2 ^ 31 ≤ n) (upper : n < 2 ^ 31) :
    parseInt (intToString n) = some n := by
  cases n with
  | ofNat m =>
    have hm : m < 2 ^ 31 := by
      rw [Int.ofNat_eq_natCast] at upper
      omega
    have hsign : ∀ c ∈ Nat.toDigits 10 m, c ≠ '-' ∧ c ≠ '+' := by
      intro c hc
      have := Nat.isDigit_of_mem_toDigits (b := 10) (by decide) (by decide) hc
      constructor <;> rintro rfl <;> exact absurd this (by decide)
    unfold intToString
    rw [parseInt.eq_3, parseDigits_toDigits, Option.bind_some, if_pos hm]
    · rfl
    · intro s hs
      exact (hsign '-' (by simp [hs])).1 rfl
    · intro s hs
      exact (hsign '+' (by simp [hs])).2 rfl
  | negSucc m =>
    have hm : m + 1 ≤ 2 ^ 31 := by omega
    simp only [intToString, parseInt, parseDigits_toDigits, Option.bind_some, if_pos hm]
    rfl

theorem intToString_inj {m n : Int} (hm : -2 ^ 31 ≤ m ∧ m < 2 ^ 31)
    (hn : -2 ^ 31 ≤ n ∧ n < 2 ^ 31) : intToString m = intToString n ↔ m = n := by
  refine ⟨fun h => Option.some.inj ?_, congrArg intToString⟩
  rw [← parseInt_intToString hm.1 hm.2, ← parseInt_intToString hn.1 hn.2, h]

theorem parseInt_bounds {s : Str} {n : Int} (h : parseInt s = some n) :
    -2 ^ 31 ≤ n ∧ n < 2 ^ 31 := by
  unfold parseInt at h
  split at h <;>
  · obtain ⟨m, -, hm⟩ := Option.bind_eq_some_iff.1 h
    split at hm
    · cases hm
      omega
    · cases hm

example : parseInt "+007".toList = some 7 := by decide
example : parseInt "2147483648".toList = none := by decide

end CarbonMessaging.JavaLang
