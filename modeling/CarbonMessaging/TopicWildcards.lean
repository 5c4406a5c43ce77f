import CarbonMessaging.CommonsUtil

/-! What is left of a topic with wildcards in its id. The id is cut at the first '*' where there
is one and at the first '#' otherwise, behind the separator in front of it. -/

namespace CarbonMessaging.TopicWildcards

open JavaLang CommonsUtil

def WildcardFree (s : Str) : Prop := '*' ∉ s ∧ '#' ∉ s

instance (s : Str) : Decidable (WildcardFree s) := inferInstanceAs (Decidable (_ ∧ _))

def HashBeforeStar (s : Str) : Prop := '*' ∈ s ∧ '#' ∈ upTo '*' s

instance (s : Str) : Decidable (HashBeforeStar s) := inferInstanceAs (Decidable (_ ∧ _))

def IsWildcardSuffix (w : Str) : Prop :=
  ∃ separator wildcard rest, w = separator :: wildcard :: rest ∧
    (separator = '.' ∨ separator = '/') ∧ (wildcard = '*' ∨ wildcard = '#')

def cutWildcards (s : Str) : Str := if '*' ∈ s then upTo '*' s else upTo '#' s

def topicRoot (s : Str) : Str :=
  if startsWith s "/".toList then TOPICS else TOPICS ++ "/".toList

theorem getTopicID_eq (t : Str) : getTopicID t =
    topicRoot (replaceChar '.' '/' t) ++ cutWildcards (replaceChar '.' '/' t) := rfl

theorem topicRoot_cons (c : Char) (s : Str) :
    topicRoot (c :: s) = if c = '/' then TOPICS else TOPICS ++ "/".toList := by
  have hslash : "/".toList = ['/'] := rfl
  rw [topicRoot, startsWith, hslash, List.isPrefixOf, List.isPrefixOf]
  by_cases hc : c = '/'
  · simp [hc]
  · simp [hc, Ne.symm hc]

theorem wildcardFree_topicRoot (s : Str) : WildcardFree (topicRoot s) := by
  rw [topicRoot]
  split <;> decide

theorem star_notMem_cut (s : Str) : '*' ∉ cutWildcards s := by
  rw [cutWildcards]
  split
  · exact notMem_upTo '*' s
  · rename_i hstar
    exact mt mem_of_mem_upTo hstar

theorem hash_mem_cut {s : Str} : '#' ∈ cutWildcards s ↔ HashBeforeStar s := by
  rw [cutWildcards, HashBeforeStar]
  split
  · rename_i hstar
    exact (and_iff_right hstar).symm
  · rename_i hstar
    exact iff_of_false (notMem_upTo '#' s) fun h => hstar h.1

theorem cutWildcards_append {b : Str} (h : WildcardFree b) (s : Str) :
    cutWildcards (b ++ s) = b ++ cutWildcards s := by
  have hstar : '*' ∈ b ++ s ↔ '*' ∈ s := by simp [h.1]
  rw [cutWildcards, cutWildcards, if_congr hstar rfl rfl, upTo_append_of_notMem h.1,
    upTo_append_of_notMem h.2]
  split <;> rfl

theorem cutWildcards_of_free {b : Str} (h : WildcardFree b) : cutWildcards b = b := by
  have hcut := cutWildcards_append h []
  rw [List.append_nil] at hcut
  exact hcut.trans (List.append_nil b)

theorem cutWildcards_eq_nil_iff {wildcard : Char} (h : wildcard = '*' ∨ wildcard = '#')
    (rest : Str) :
    cutWildcards (wildcard :: rest) = [] ↔ ¬HashBeforeStar (wildcard :: rest) := by
  rw [← hash_mem_cut]
  constructor
  · intro hcut
    rw [hcut]
    exact List.not_mem_nil
  · intro hhash
    by_contra hcut
    obtain ⟨c, cut, hcons⟩ := List.exists_cons_of_ne_nil hcut
    have hinitial : cutWildcards (wildcard :: rest) <+: wildcard :: rest := by
      rw [cutWildcards]
      split <;> exact upTo_isInitial _ _
    rw [hcons, List.cons_prefix_cons] at hinitial
    rw [hcons] at hhash
    rcases h with rfl | rfl
    · have hstar := star_notMem_cut ('*' :: rest)
      rw [hcons, hinitial.1] at hstar
      exact hstar List.mem_cons_self
    · rw [hinitial.1] at hhash
      exact hhash List.mem_cons_self

theorem wildcardFree_replaceChar {s : Str} :
    WildcardFree (replaceChar '.' '/' s) ↔ WildcardFree s := by
  rw [WildcardFree, WildcardFree, mem_replaceChar_of_ne (by decide) (by decide),
    mem_replaceChar_of_ne (by decide) (by decide)]

theorem hashBeforeStar_replaceChar {s : Str} :
    HashBeforeStar (replaceChar '.' '/' s) ↔ HashBeforeStar s := by
  rw [HashBeforeStar, HashBeforeStar, upTo_replaceChar (by decide) (by decide),
    mem_replaceChar_of_ne (by decide) (by decide), mem_replaceChar_of_ne (by decide) (by decide)]

theorem hashBeforeStar_cons {c : Char} (hstar : c ≠ '*') (hhash : c ≠ '#') {s : Str} :
    HashBeforeStar (c :: s) ↔ HashBeforeStar s := by
  have hkept : upTo '*' (c :: s) = c :: upTo '*' s :=
    upTo_append_of_notMem (s := [c]) (by simpa using hstar.symm) s
  rw [HashBeforeStar, HashBeforeStar, hkept, List.mem_cons, List.mem_cons]
  simp [hstar.symm, hhash.symm]

theorem wildcardFree_getTopicID {t : Str} : WildcardFree (getTopicID t) ↔ ¬HashBeforeStar t := by
  have hroot := wildcardFree_topicRoot (replaceChar '.' '/' t)
  have hstar := star_notMem_cut (replaceChar '.' '/' t)
  rw [getTopicID_eq, WildcardFree, List.mem_append, List.mem_append, hash_mem_cut,
    hashBeforeStar_replaceChar]
  simp [hroot.1, hroot.2, hstar]

theorem getTopicID_suffix {b : Str} (hb : WildcardFree b) {separator wildcard : Char}
    (hseparator : separator = '.' ∨ separator = '/') (rest : Str) :
    getTopicID (b ++ separator :: wildcard :: rest) =
      topicRoot (replaceChar '.' '/' b ++ ['/']) ++ replaceChar '.' '/' b ++
        '/' :: cutWildcards (replaceChar '.' '/' (wildcard :: rest)) := by
  have hslash : replaceChar '.' '/' (separator :: wildcard :: rest) =
      '/' :: replaceChar '.' '/' (wildcard :: rest) := by
    rcases hseparator with rfl | rfl <;> rfl
  have hcut : cutWildcards ('/' :: replaceChar '.' '/' (wildcard :: rest)) =
      '/' :: cutWildcards (replaceChar '.' '/' (wildcard :: rest)) :=
    cutWildcards_append (b := ['/']) (by decide) _
  have hroot : ∀ s : Str, topicRoot (replaceChar '.' '/' b ++ '/' :: s) =
      topicRoot (replaceChar '.' '/' b ++ ['/']) := by
    intro s
    cases replaceChar '.' '/' b with
    | nil => rfl
    | cons c b' => rw [List.cons_append, List.cons_append, topicRoot_cons, topicRoot_cons]
  rw [getTopicID_eq, replaceChar_append, hslash, hroot,
    cutWildcards_append (wildcardFree_replaceChar.2 hb), hcut, List.append_assoc]

theorem getTopicID_suffix_eq_iff {b w : Str} (hb : WildcardFree b) (hw : IsWildcardSuffix w) :
    getTopicID (b ++ w) = getTopicID b ↔ b = [] ∧ ¬HashBeforeStar w := by
  obtain ⟨separator, wildcard, rest, rfl, hseparator, hwildcard⟩ := hw
  have hcut := cutWildcards_of_free (wildcardFree_replaceChar.2 hb)
  have hhash : HashBeforeStar (separator :: wildcard :: rest) ↔
      HashBeforeStar (wildcard :: rest) := by
    rcases hseparator with rfl | rfl <;> exact hashBeforeStar_cons (by decide) (by decide)
  have hsame : replaceChar '.' '/' (wildcard :: rest) =
      wildcard :: replaceChar '.' '/' rest := by
    rcases hwildcard with rfl | rfl <;> rfl
  have hempty := cutWildcards_eq_nil_iff hwildcard (replaceChar '.' '/' rest)
  rw [← hsame, hashBeforeStar_replaceChar] at hempty
  rw [getTopicID_suffix hb hseparator, getTopicID_eq, hcut, hhash, ← hempty]
  cases b with
  | nil =>
    have hroot : topicRoot [] = topicRoot ['/'] ++ "/".toList := by decide
    have hslash : "/".toList = ['/'] := rfl
    rw [show replaceChar '.' '/' [] = [] from rfl, List.nil_append, List.append_nil,
      List.append_nil, hroot, List.append_cancel_left_eq, hslash]
    simp
  | cons c b =>
    have hroot : topicRoot (replaceChar '.' '/' (c :: b) ++ ['/']) =
        topicRoot (replaceChar '.' '/' (c :: b)) := by
      rw [replaceChar, List.map_cons, List.cons_append, topicRoot_cons, topicRoot_cons]
    rw [hroot]
    refine iff_of_false (fun h => ?_) fun h => List.cons_ne_nil c b h.1
    have hlength := congrArg List.length h
    rw [List.length_append, List.length_cons] at hlength
    omega

/-- Ids are free of wildcards but for a '#' before a '*', and the id of a base topic is never the
one of the topic with wildcards behind it, the nameless base apart. -/
theorem wildcardTopics_iff (t b w : Str) :
    (WildcardFree (getTopicID t) ↔ ¬HashBeforeStar t) ∧
    (WildcardFree b → IsWildcardSuffix w →
      (getTopicID (b ++ w) = getTopicID b ↔ b = [] ∧ ¬HashBeforeStar w)) :=
  ⟨wildcardFree_getTopicID, getTopicID_suffix_eq_iff⟩

theorem wildcardTopics_iff_root :
    WildcardFree (getTopicID "a.*.#".toList) ∧ getTopicID ([] ++ "/*".toList) = getTopicID [] := by
  obtain ⟨hfree, hbase⟩ := wildcardTopics_iff "a.*.#".toList [] "/*".toList
  refine ⟨hfree.2 (by decide), (hbase (by decide) ?_).2 ⟨rfl, by decide⟩⟩
  exact ⟨'/', '*', [], rfl, .inr rfl, .inl rfl⟩

theorem myTopic_keeps_slash : ¬WildcardFree (getTopicID "#.*".toList) ∧
    getTopicID ("myTopic".toList ++ "/*/*".toList) ≠ getTopicID "myTopic".toList := by decide

end CarbonMessaging.TopicWildcards
