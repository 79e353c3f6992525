import DocStore.Http.Target
import DocStore.Proofs.Text.Percent
import Mathlib.Data.List.Basic
import Mathlib.Data.List.TakeWhile

/-!
# Paths as they are sent

An address is an origin if it names a server and nothing else (`isOrigin`). The path behind an
origin is sent as it is written if its segments consist of segment characters and none of them is a
dot segment (`target?_slashed`). Of the percent-encoded texts only `.` and `..` are dot segments
(`dots_percentEncoded`).
-/

namespace DocStore.Http

open Text

/-- The address names a server and has neither path, query nor fragment. -/
def isOrigin (url : String) : Bool :=
  match afterScheme? (cleaned url.toList) with
  | some authority => !authority.isEmpty && !authority.any endsAuthority
  | none => false

def slashed (segments : List (List Char)) : List Char := segments.flatMap ('/' :: ·)

/-- The characters that are dropped at the ends of an address. -/
def isOuter (c : Char) : Bool := c.toNat ≤ 0x20

def isKept (c : Char) : Bool := c != '\t' && c != '\n' && c != '\r'

/-! ## Segment characters -/

theorem toNat_of_isSegmentChar {c : Char} (h : isSegmentChar c = true) : c.toNat < 128 := by
  have hle (d : Char) (hd : c ≤ d) (hlt : d.toNat < 128) : c.toNat < 128 :=
    Nat.lt_of_le_of_lt hd hlt
  have hupper (h : c.isUpper = true) : c.toNat < 128 :=
    hle 'Z' (of_decide_eq_true h).2 (by decide)
  have hlower (h : c.isLower = true) : c.toNat < 128 :=
    hle 'z' (of_decide_eq_true (Bool.and_eq_true_iff.mp h).2) (by decide)
  have hdigit (h : c.isDigit = true) : c.toNat < 128 :=
    hle '9' (of_decide_eq_true (Bool.and_eq_true_iff.mp h).2) (by decide)
  have halphanum (h : c.isAlphanum = true) : c.toNat < 128 :=
    (Bool.or_eq_true_iff.mp h).elim
      (fun h => (Bool.or_eq_true_iff.mp h).elim hupper hlower) hdigit
  simp only [isSegmentChar, Bool.or_eq_true, beq_iff_eq] at h
  rcases h with (((((h | h) | h) | h) | h) | h)
  · exact halphanum h
  all_goals rw [h]; decide

/-- A segment character is no mark of an address, and is sent as it is. -/
theorem isSegmentChar_ne {c : Char} (h : isSegmentChar c = true) :
    isOuter c = false ∧ isSlash c = false ∧ c ≠ '?' ∧ c ≠ '#' ∧ pathNeedsPercent c = false := by
  have hall : ∀ n < 128, isSegmentChar (Char.ofNat n) = true → isOuter (Char.ofNat n) = false ∧
      isSlash (Char.ofNat n) = false ∧ Char.ofNat n ≠ '?' ∧ Char.ofNat n ≠ '#' ∧
      pathNeedsPercent (Char.ofNat n) = false := by
    decide +kernel
  have := hall c.toNat (toNat_of_isSegmentChar h)
  rw [Char.ofNat_toNat] at this
  exact this h

theorem segmentChars_of_all {segments : List (List Char)}
    (h : (segments.all fun s => s.all isSegmentChar) = true) :
    ∀ s ∈ segments, ∀ c ∈ s, isSegmentChar c = true := by
  intro s hs
  exact List.all_eq_true.mp (List.all_eq_true.mp h s hs)

section

variable {segments : List (List Char)}
  (hchars : ∀ s ∈ segments, ∀ c ∈ s, isSegmentChar c = true)
include hchars

theorem slashed_chars {c : Char} (hc : c ∈ slashed segments) :
    isOuter c = false ∧ c ≠ '?' ∧ c ≠ '#' := by
  obtain ⟨s, hs, hc⟩ := List.mem_flatMap.mp hc
  rcases List.mem_cons.mp hc with rfl | hc
  · decide
  · obtain ⟨hblank, _, hquery, hfragment, _⟩ := isSegmentChar_ne (hchars s hs c hc)
    exact ⟨hblank, hquery, hfragment⟩

theorem pathOf_eq_slashed : pathOf segments = slashed segments := by
  refine List.flatMap_congr fun s hs => congrArg _ ?_
  have hone : ∀ c ∈ s, encodeChar pathNeedsPercent c = [c] := by
    intro c hc
    rw [encodeChar, (isSegmentChar_ne (hchars s hs c hc)).2.2.2.2]
    rfl
  rw [List.flatMap_congr hone, List.flatMap_singleton']

end

/-! ## Splitting a path -/

theorem splitBy_append {s : List Char} (hs : ∀ c ∈ s, isSlash c = false) {t : List Char}
    {first : List Char} {others : List (List Char)} (ht : splitBy isSlash t = first :: others) :
    splitBy isSlash (s ++ t) = (s ++ first) :: others := by
  induction s with
  | nil => exact ht
  | cons c s ih =>
    obtain ⟨hc, hs⟩ := List.forall_mem_cons.mp hs
    rw [List.cons_append, splitBy, hc, ih hs]
    rfl

theorem splitBy_slashed {segment : List Char} {segments : List (List Char)}
    (h : ∀ s ∈ segment :: segments, ∀ c ∈ s, isSlash c = false) :
    splitBy isSlash (segment ++ slashed segments) = segment :: segments := by
  induction segments generalizing segment with
  | nil =>
    have hnil : splitBy isSlash (slashed []) = [[]] := rfl
    rw [splitBy_append (h segment List.mem_cons_self) hnil, List.append_nil]
  | cons next segments ih =>
    obtain ⟨hsegment, hrest⟩ := List.forall_mem_cons.mp h
    have ht : splitBy isSlash (slashed (next :: segments)) = [] :: next :: segments := by
      have hcons : slashed (next :: segments) = '/' :: (next ++ slashed segments) := rfl
      rw [hcons, splitBy, if_pos (by decide), ih hrest]
    rw [splitBy_append hsegment ht, List.append_nil]

theorem resolveDots_of_plain {segments : List (List Char)}
    (h : ∀ s ∈ segments, isSingleDot s = false ∧ isDoubleDot s = false)
    (above : List (List Char)) : resolveDots above segments = above.reverse ++ segments := by
  induction segments generalizing above with
  | nil => rw [resolveDots, List.append_nil]
  | cons s rest ih =>
    obtain ⟨hs, hrest⟩ := List.forall_mem_cons.mp h
    rw [resolveDots, hs.1, hs.2, if_neg Bool.false_ne_true, if_neg Bool.false_ne_true, ih hrest,
      List.reverse_cons, List.append_assoc, List.singleton_append]

/-! ## Addresses behind an origin -/

theorem cleaned_eq (url : List Char) : cleaned url =
    (((url.dropWhile isOuter).reverse.dropWhile isOuter).reverse).filter isKept := rfl

theorem isKept_of_not_outer {c : Char} (h : isOuter c = false) : isKept c = true := by
  simp only [isKept, Bool.and_eq_true, bne_iff_ne]
  refine ⟨⟨?_, ?_⟩, ?_⟩ <;> rintro rfl <;> exact absurd h (by decide)

/-- Blanks at the end of an address stay where a path follows it. -/
theorem cleaned_append {url path : List Char} (hurl : cleaned url ≠ []) (hne : path ≠ [])
    (hpath : ∀ c ∈ path, isOuter c = false) :
    ∃ gap : List Char, (∀ c ∈ gap, isOuter c = true) ∧
      cleaned (url ++ path) = cleaned url ++ (gap ++ path) := by
  have hstart : (url ++ path).dropWhile isOuter = url.dropWhile isOuter ++ path := by
    rw [List.dropWhile_append, if_neg]
    rw [List.isEmpty_iff]
    intro h
    rw [cleaned_eq, h] at hurl
    exact hurl rfl
  have hend (body : List Char) :
      (path.reverse ++ body).dropWhile isOuter = path.reverse ++ body := by
    obtain ⟨c, rest, hrev⟩ := List.exists_cons_of_ne_nil (List.reverse_ne_nil_iff.mpr hne)
    have hc : isOuter c = false := hpath c (List.mem_reverse.mp (hrev ▸ List.mem_cons_self))
    rw [hrev, List.cons_append, List.dropWhile_cons, hc, if_neg Bool.false_ne_true]
  have hkept : path.filter isKept = path :=
    List.filter_eq_self.mpr fun c hc => isKept_of_not_outer (hpath c hc)
  let trailing := ((url.dropWhile isOuter).reverse.takeWhile isOuter).reverse
  have hsplit : ((url.dropWhile isOuter).reverse.dropWhile isOuter).reverse ++ trailing =
      url.dropWhile isOuter := by
    rw [← List.reverse_append, List.takeWhile_append_dropWhile, List.reverse_reverse]
  refine ⟨trailing.filter isKept, fun c hc => ?_, ?_⟩
  · exact List.mem_takeWhile_imp (List.mem_reverse.mp (List.mem_filter.mp hc).1)
  · rw [cleaned_eq, hstart, List.reverse_append, hend, List.reverse_append, List.reverse_reverse,
      List.reverse_reverse, List.filter_append, hkept, cleaned_eq, ← List.append_assoc,
      ← List.filter_append, hsplit]

def isWebScheme (scheme : List Char) : Bool :=
  scheme.map Char.toLower == "http".toList || scheme.map Char.toLower == "https".toList

theorem afterScheme?_of_scheme {scheme : List Char} (hcolon : ∀ c ∈ scheme, (c != ':') = true)
    (hscheme : isWebScheme scheme = true) (body : List Char) :
    afterScheme? (scheme ++ ':' :: body) = some (body.dropWhile isSlash) := by
  have htake : (scheme ++ ':' :: body).takeWhile (· != ':') = scheme := by
    rw [List.takeWhile_append_of_pos hcolon]
    exact List.append_nil _
  have hdrop : (scheme ++ ':' :: body).dropWhile (· != ':') = ':' :: body := by
    rw [List.dropWhile_append_of_pos hcolon]
    rfl
  rw [afterScheme?, htake, hdrop]
  exact if_pos hscheme

theorem exists_scheme {url rest : List Char} (h : afterScheme? url = some rest) :
    ∃ scheme body, url = scheme ++ ':' :: body ∧ (∀ c ∈ scheme, (c != ':') = true) ∧
      isWebScheme scheme = true ∧ rest = body.dropWhile isSlash := by
  have hsplit : url.takeWhile (· != ':') ++ url.dropWhile (· != ':') = url :=
    List.takeWhile_append_dropWhile
  unfold afterScheme? at h
  dsimp only at h
  split at h
  · rename_i hscheme
    split at h
    · rename_i body hbody
      rw [hbody] at hsplit
      rw [Option.some.injEq] at h
      exact ⟨_, body, hsplit.symm, fun c hc => List.mem_takeWhile_imp (p := (· != ':')) hc, hscheme,
        h.symm⟩
    · cases h
  · cases h

theorem afterScheme?_append {url rest : List Char} (h : afterScheme? url = some rest)
    (hne : rest ≠ []) (more : List Char) : afterScheme? (url ++ more) = some (rest ++ more) := by
  obtain ⟨scheme, body, rfl, hcolon, hscheme, rfl⟩ := exists_scheme h
  rw [List.append_assoc, List.cons_append, afterScheme?_of_scheme hcolon hscheme,
    List.dropWhile_append, if_neg]
  rwa [List.isEmpty_iff]

section

variable {segments : List (List Char)} (hne : segments ≠ [])
  (hchars : ∀ s ∈ segments, ∀ c ∈ s, isSegmentChar c = true)
include hne hchars

/-- Behind the scheme of an address stands the name of the server, and then the path. -/
theorem afterScheme?_slashed {url : String} (hurl : isOrigin url = true) :
    ∃ name : List Char, (∀ c ∈ name, (!endsAuthority c) = true) ∧
      afterScheme? (cleaned (url.toList ++ slashed segments)) = some (name ++ slashed segments) := by
  unfold isOrigin at hurl
  split at hurl
  · rename_i authority ha
    simp only [Bool.and_eq_true, Bool.not_eq_true', List.isEmpty_eq_false_iff,
      List.any_eq_false, Bool.not_eq_true] at hurl
    have hcleaned : cleaned url.toList ≠ [] := by
      intro h
      rw [h] at ha
      cases ha
    have hpath : slashed segments ≠ [] := by
      obtain ⟨first, others, rfl⟩ := List.exists_cons_of_ne_nil hne
      exact List.cons_ne_nil _ _
    obtain ⟨gap, hgap, happend⟩ := cleaned_append hcleaned hpath
      fun c hc => (slashed_chars hchars hc).1
    refine ⟨authority ++ gap, List.forall_mem_append.mpr ⟨fun c hc => ?_, fun c hc => ?_⟩, ?_⟩
    · rw [hurl.2 c hc]
      rfl
    · have houter := hgap c hc
      simp only [endsAuthority, isSlash, Bool.not_or, Bool.and_eq_true, Bool.not_eq_true',
        beq_eq_false_iff_ne]
      refine ⟨⟨⟨?_, ?_⟩, ?_⟩, ?_⟩ <;> rintro rfl <;> exact absurd houter (by decide)
    · rw [happend, afterScheme?_append ha hurl.1, List.append_assoc]
  · cases hurl

theorem splitBy_drop_slashed : splitBy isSlash ((slashed segments).drop 1) = segments := by
  obtain ⟨first, others, rfl⟩ := List.exists_cons_of_ne_nil hne
  exact splitBy_slashed fun s hs c hc => (isSegmentChar_ne (hchars s hs c hc)).2.1

/-- A path behind an origin is sent as it is written, as long as no segment is a dot segment. -/
theorem target?_slashed {url target : String} (hurl : isOrigin url = true)
    (hdots : ∀ s ∈ segments, isSingleDot s = false ∧ isDoubleDot s = false)
    (ht : target? (url ++ String.ofList (slashed segments)) = some target) :
    target = String.ofList (slashed segments) := by
  obtain ⟨name, hname, hafter⟩ := afterScheme?_slashed hne hchars hurl
  have htail : (name ++ slashed segments).dropWhile (!endsAuthority ·) = slashed segments := by
    obtain ⟨first, others, rfl⟩ := List.exists_cons_of_ne_nil hne
    rw [List.dropWhile_append_of_pos hname]
    rfl
  have hfragment : (slashed segments).takeWhile (· != '#') = slashed segments :=
    List.takeWhile_eq_self_iff.mpr fun c hc => by simpa using (slashed_chars hchars hc).2.2
  have hquery : (slashed segments).takeWhile (· != '?') = slashed segments :=
    List.takeWhile_eq_self_iff.mpr fun c hc => by simpa using (slashed_chars hchars hc).2.1
  have hnoquery : (slashed segments).dropWhile (· != '?') = [] :=
    List.dropWhile_eq_nil_iff.mpr fun c hc => by simpa using (slashed_chars hchars hc).2.1
  rw [target?, String.toList_append, String.toList_ofList, hafter] at ht
  dsimp only [bind, Option.bind] at ht
  rw [htail, hfragment, hquery, hnoquery, splitBy_drop_slashed hne hchars,
    resolveDots_of_plain hdots, List.reverse_nil, List.nil_append, pathOf_eq_slashed hchars] at ht
  split at ht
  · cases ht
    rw [List.flatMap_nil, List.append_nil]
  · cases ht

end

/-! ## Dot segments -/

theorem dropDot?_cons {c : Char} (hdot : c ≠ '.') (hpercent : c ≠ '%') (s : List Char) :
    dropDot? (c :: s) = none := by
  unfold dropDot?
  split
  · rename_i heq
    cases heq
    exact absurd rfl hdot
  all_goals first | rfl | (rename_i heq; cases heq; exact absurd rfl hpercent)

/-- A byte that has to be written by its number is no dot. -/
theorem dropDot?_percentTriple {b : UInt8} (h : isUnreservedByte b.toNat = false)
    (s : List Char) : dropDot? (percentTriple b ++ s) = none := by
  have hall : ∀ n < 256, isUnreservedByte n = false → upperHexDigit (n / 16) = '2' →
      upperHexDigit (n % 16) ≠ 'e' ∧ upperHexDigit (n % 16) ≠ 'E' := by
    decide +kernel
  have hdigits := hall b.toNat b.toNat_lt h
  rw [percentTriple]
  generalize upperHexDigit (b.toNat / 16) = high at hdigits ⊢
  generalize upperHexDigit (b.toNat % 16) = low at hdigits ⊢
  show dropDot? ('%' :: high :: low :: s) = none
  unfold dropDot?
  split
  · rename_i heq
    cases heq
  · rename_i heq
    cases heq
    exact absurd rfl (hdigits rfl).1
  · rename_i heq
    cases heq
    exact absurd rfl (hdigits rfl).2
  · rfl

/-- A percent-encoded text starts with a dot, however that may be written, if its first byte is
one. -/
theorem dropDot?_percentBytes (b : UInt8) (bytes : List UInt8) :
    dropDot? (percentBytes (b :: bytes)) =
      if b = 0x2E then some (percentBytes bytes) else none := by
  rw [percentBytes, List.flatMap_cons, ← percentBytes]
  by_cases hb : b = 0x2E
  · subst hb
    rfl
  · rw [if_neg hb, percentByte]
    split
    · rename_i hunreserved
      refine dropDot?_cons (fun he => hb ?_) (charOfByte_ne_percent hunreserved) _
      exact byte_eq_of_char he
    · rename_i hunreserved
      exact dropDot?_percentTriple (by simpa using hunreserved) _

theorem percentBytes_eq_nil {bytes : List UInt8} (h : percentBytes bytes = []) : bytes = [] :=
  percentBytes_injective h

theorem eq_of_isSingleDot {bytes : List UInt8} (h : isSingleDot (percentBytes bytes) = true) :
    bytes = [0x2E] := by
  rw [isSingleDot, beq_iff_eq] at h
  cases bytes with
  | nil => cases h
  | cons b rest =>
    rw [dropDot?_percentBytes] at h
    split at h
    · rename_i hb
      rw [Option.some.injEq] at h
      rw [hb, percentBytes_eq_nil h]
    · cases h

theorem eq_of_isDoubleDot {bytes : List UInt8} (h : isDoubleDot (percentBytes bytes) = true) :
    bytes = [0x2E, 0x2E] := by
  rw [isDoubleDot, beq_iff_eq] at h
  cases bytes with
  | nil => cases h
  | cons b rest =>
    rw [dropDot?_percentBytes] at h
    split at h
    · rename_i hb
      rw [hb, eq_of_isSingleDot (beq_iff_eq.mpr h)]
    · cases h

/-- The texts that are dot segments when they are percent-encoded. -/
def isDots (s : String) : Bool := s == "." || s == ".."

theorem dots_percentEncoded {s : String} (h : isDots s = false) :
    isSingleDot (percentEncoded s).toList = false ∧
      isDoubleDot (percentEncoded s).toList = false := by
  rw [isDots, Bool.or_eq_false_iff, beq_eq_false_iff_ne, beq_eq_false_iff_ne] at h
  rw [toList_percentEncoded, ← Bool.not_eq_true, ← Bool.not_eq_true]
  refine ⟨fun hdot => h.1 ?_, fun hdots => h.2 ?_⟩
  · rw [← Utf8.lossy_encode s, eq_of_isSingleDot hdot]
    decide
  · rw [← Utf8.lossy_encode s, eq_of_isDoubleDot hdots]
    decide

end DocStore.Http
