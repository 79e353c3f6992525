import DocStore.Json.Printer
import DocStore.Json.Token
import Mathlib.Algebra.Group.Nat.Defs

/-!
# Tokens of printed texts

A token ends where it does whatever follows it, unless a number could go on with that
(`scan_append`). String literals are scanned as the strings that they were printed from
(`next?_writeString`), and so are natural numbers of 64 bits (`next?_digitChars`).
-/

namespace DocStore.Token

/-- No number goes on with the text. -/
def Delimited (rest : List Char) : Prop :=
  ∀ d ∈ rest.head?, d.isDigit = false ∧ d ≠ '.' ∧ d ≠ 'e' ∧ d ≠ 'E'

/-! ## Strings -/

/-- Puts a piece before those of a scanned string. -/
def putPiece (p : Piece) (parts : List Piece × List Char) : List Piece × List Char :=
  (p :: parts.1, parts.2)

theorem spanString_escape {e c : Char} (h : escapeValue e = some c) (rest : List Char) :
    spanString ('\\' :: e :: rest) = (spanString rest).map (putPiece (.char c)) := by
  rw [spanString]
  · rw [h]
    cases spanString rest <;> rfl
  · rintro a b c' d r rfl
    cases h

theorem spanString_unit {a b c d : Char} {code : Nat} (h : hexUnit a b c d = some code)
    (rest : List Char) :
    spanString ('\\' :: 'u' :: a :: b :: c :: d :: rest) =
      (spanString rest).map (putPiece (.unit code)) := by
  rw [spanString, h]
  cases spanString rest <;> rfl

theorem spanString_plain {c : Char} (hq : c ≠ '"') (hb : c ≠ '\\') (hc : ¬ c.toNat < 0x20)
    (rest : List Char) :
    spanString (c :: rest) = (spanString rest).map (putPiece (.char c)) := by
  rw [spanString]
  · rw [if_neg hc]
    cases spanString rest <;> rfl
  · exact hq
  · rintro a b c' d r rfl; exact absurd rfl hb
  · rintro e r rfl; exact absurd rfl hb

theorem hexUnit_hexDigit {n : Nat} (h : n < 0x20) :
    hexUnit '0' '0' (Json.hexDigit (n / 16)) (Json.hexDigit (n % 16)) = some n := by
  have hall : ∀ n < 0x20,
      hexUnit '0' '0' (Json.hexDigit (n / 16)) (Json.hexDigit (n % 16)) = some n := by decide
  exact hall n h

theorem joinPieces_unit {code : Nat} (hh : isHighSurrogate code = false)
    (hl : isLowSurrogate code = false) (ps : List Piece) :
    joinPieces (.unit code :: ps) = (Char.ofNat code :: ·) <$> joinPieces ps := by
  conv => lhs; unfold joinPieces
  simp only [hh, hl, Bool.false_eq_true, ↓reduceIte]

/-- A character is written as one piece that stands for it. -/
theorem spanString_writeChar (c : Char) : ∃ p,
    (∀ rest, spanString (Json.writeChar c ++ rest) = (spanString rest).map (putPiece p)) ∧
      ∀ ps, joinPieces (p :: ps) = (c :: ·) <$> joinPieces ps := by
  unfold Json.writeChar
  split
  · exact ⟨.char '"', spanString_escape rfl, fun _ => rfl⟩
  · exact ⟨.char '\\', spanString_escape rfl, fun _ => rfl⟩
  · exact ⟨.char '\n', spanString_escape rfl, fun _ => rfl⟩
  · exact ⟨.char '\r', spanString_escape rfl, fun _ => rfl⟩
  · exact ⟨.char '\t', spanString_escape rfl, fun _ => rfl⟩
  · exact ⟨.char '\x08', spanString_escape rfl, fun _ => rfl⟩
  · exact ⟨.char '\x0c', spanString_escape rfl, fun _ => rfl⟩
  · rename_i hq hb _ _ _ _ _
    split
    · rename_i hc
      refine ⟨.unit c.toNat, spanString_unit (hexUnit_hexDigit hc), fun ps => ?_⟩
      have hhigh : isHighSurrogate c.toNat = false := by
        rw [isHighSurrogate, Bool.and_eq_false_iff]; left; simp; omega
      have hlow : isLowSurrogate c.toNat = false := by
        rw [isLowSurrogate, Bool.and_eq_false_iff]; left; simp; omega
      rw [joinPieces_unit hhigh hlow, Char.ofNat_toNat]
    · rename_i hc
      exact ⟨.char c, spanString_plain hq hb hc, fun _ => rfl⟩

/-- The pieces up to the closing quote stand for the characters that were written. -/
theorem spanString_writeString (cs rest : List Char) :
    ∃ ps, spanString (cs.flatMap Json.writeChar ++ '"' :: rest) = some (ps, rest) ∧
      joinPieces ps = some cs := by
  induction cs with
  | nil => exact ⟨[], by rw [List.flatMap_nil, List.nil_append, spanString], rfl⟩
  | cons c cs ih =>
    obtain ⟨ps, hs, hj⟩ := ih
    obtain ⟨p, hp, hpj⟩ := spanString_writeChar c
    refine ⟨p :: ps, ?_, ?_⟩
    · rw [List.flatMap_cons, List.append_assoc, hp, hs]; rfl
    · rw [hpj, hj]; rfl

theorem next?_writeString (s : String) (rest : List Char) :
    next? (Json.writeString s ++ rest) = some (.string (some s), rest) := by
  obtain ⟨ps, hs, hj⟩ := spanString_writeString s.toList rest
  have htext : Json.writeString s ++ rest =
      '"' :: (s.toList.flatMap Json.writeChar ++ '"' :: rest) := by
    simp [Json.writeString]
  rw [htext, next?, hs]
  simp [hj]

/-- A scanned string literal does not depend on what follows it. -/
theorem spanString_append {s r : List Char} {ps : List Piece} (h : spanString s = some (ps, r))
    (rest : List Char) : spanString (s ++ rest) = some (ps, r ++ rest) := by
  fun_induction spanString s generalizing ps with
  | case1 => cases h
  | case2 r' =>
    cases h
    rw [List.cons_append, spanString]
  | case3 a b c d r' ih =>
    obtain ⟨code, hcode, h⟩ := Option.bind_eq_some_iff.mp h
    obtain ⟨⟨qs, r''⟩, hq, h⟩ := Option.bind_eq_some_iff.mp h
    cases h
    exact (spanString_unit hcode (r' ++ rest)).trans (by rw [ih hq]; rfl)
  | case4 e r' hu ih =>
    obtain ⟨c, hc, h⟩ := Option.bind_eq_some_iff.mp h
    obtain ⟨⟨qs, r''⟩, hq, h⟩ := Option.bind_eq_some_iff.mp h
    cases h
    exact (spanString_escape hc (r' ++ rest)).trans (by rw [ih hq]; rfl)
  | case5 c r' hc => cases h
  | case6 c r' hq hu he hc ih =>
    obtain ⟨⟨qs, r''⟩, hs, h⟩ := Option.bind_eq_some_iff.mp h
    cases h
    have hb : c ≠ '\\' := by
      rintro rfl
      cases r' with
      | nil => cases hs
      | cons e r' => exact he e r' rfl rfl
    exact (spanString_plain hq hb hc (r' ++ rest)).trans (by rw [ih hs]; rfl)

/-! ## Numbers -/

theorem spanDigits_append {rest : List Char} (hd : Delimited rest) (s : List Char) :
    spanDigits (s ++ rest) = ((spanDigits s).1, (spanDigits s).2 ++ rest) := by
  induction s with
  | nil =>
    cases rest with
    | nil => rfl
    | cons d r => simp [spanDigits, (hd d rfl).1]
  | cons c s ih =>
    simp only [spanDigits, Prod.mk.injEq] at ih
    by_cases hc : c.isDigit = true
    · simp [spanDigits, hc, ih.1, ih.2]
    · simp [spanDigits, hc]

theorem spanWhole_of_ne {c : Char} (hz : c ≠ '0') (s : List Char) :
    spanWhole (c :: s) =
      if (spanDigits (c :: s)).1 = [] then none else some (spanDigits (c :: s)) := by
  unfold spanWhole
  split
  · rename_i heq
    cases heq
    exact absurd rfl hz
  · split
    · rename_i heq
      rw [heq, if_pos rfl]
    · rename_i hne
      exact (if_neg fun he => hne _ (Prod.ext he rfl)).symm

theorem spanWhole_append {rest s ds r : List Char} (hd : Delimited rest)
    (h : spanWhole s = some (ds, r)) : spanWhole (s ++ rest) = some (ds, r ++ rest) := by
  cases s with
  | nil => cases h
  | cons c s =>
    by_cases hz : c = '0'
    · subst hz
      cases h
      rfl
    · rw [spanWhole_of_ne hz] at h
      have hs := spanDigits_append hd (c :: s)
      rw [List.cons_append] at hs ⊢
      rw [spanWhole_of_ne hz, hs]
      split at h
      · cases h
      · rename_i hne
        rw [if_neg hne, Option.some.inj h]

theorem spanFraction_append {rest s ds r : List Char} (hd : Delimited rest)
    (h : spanFraction s = some (ds, r)) : spanFraction (s ++ rest) = some (ds, r ++ rest) := by
  unfold spanFraction at h
  split at h
  · rename_i s
    split at h
    · cases h
    · rename_i hne
      have hs := Option.some.inj h
      rw [List.cons_append, spanFraction, spanDigits_append hd, hs]
      cases ds with
      | nil => exact absurd hs (hne r)
      | cons c ds => rfl
  · rename_i hp
    cases h
    cases s with
    | nil =>
      rw [List.nil_append, spanFraction]
      rintro r' rfl
      exact (hd '.' rfl).2.1 rfl
    | cons c s =>
      rw [List.cons_append, spanFraction]
      rintro r' heq
      exact hp s (by rw [(List.cons.inj heq).1])

theorem spanExponentDigits_append {rest s r : List Char} {negative : Bool} {e : Option Int}
    (hd : Delimited rest) (h : spanExponentDigits negative s = some (e, r)) :
    spanExponentDigits negative (s ++ rest) = some (e, r ++ rest) := by
  unfold spanExponentDigits at h ⊢
  rw [spanDigits_append hd]
  split at h
  · cases h
  · rename_i ds r' hne hs
    cases h
    rw [hs]
    cases ds with
    | nil => exact (hne rfl).elim
    | cons c ds => rfl

/-- After the letter of an exponent stands a sign or a digit. -/
theorem spanExponent_letter {c : Char} (hc : c = 'e' ∨ c = 'E') (d : Char) (s : List Char) :
    spanExponent (c :: d :: s) =
      if d = '-' then spanExponentDigits true s
      else if d = '+' then spanExponentDigits false s
      else spanExponentDigits false (d :: s) := by
  unfold spanExponent
  dsimp only
  rw [if_pos hc]
  split
  · rename_i heq
    cases heq
    rfl
  · rename_i heq
    cases heq
    rfl
  · rename_i hm hp
    rw [if_neg fun h => hm s (by rw [h]), if_neg fun h => hp s (by rw [h])]

theorem spanExponent_of_ne {c : Char} (hc : ¬(c = 'e' ∨ c = 'E')) (s : List Char) :
    spanExponent (c :: s) = some (none, c :: s) := by
  unfold spanExponent
  exact if_neg hc

theorem spanExponent_append {rest s r : List Char} {e : Option Int} (hd : Delimited rest)
    (h : spanExponent s = some (e, r)) : spanExponent (s ++ rest) = some (e, r ++ rest) := by
  cases s with
  | nil =>
    cases h
    cases rest with
    | nil => rfl
    | cons d r =>
      obtain ⟨_, _, he, hE⟩ := hd d rfl
      exact spanExponent_of_ne (by simp [he, hE]) r
  | cons c s =>
    by_cases hc : c = 'e' ∨ c = 'E'
    · cases s with
      | nil => rcases hc with rfl | rfl <;> cases h
      | cons d s =>
        rw [spanExponent_letter hc] at h
        rw [List.cons_append, List.cons_append, spanExponent_letter hc]
        split at h
        · rename_i hm
          rw [if_pos hm]
          exact spanExponentDigits_append hd h
        · rename_i hm
          split at h
          · rename_i hp
            rw [if_neg hm, if_pos hp]
            exact spanExponentDigits_append hd h
          · rename_i hp
            rw [if_neg hm, if_neg hp]
            exact spanExponentDigits_append hd h
    · rw [spanExponent_of_ne hc] at h
      cases h
      exact spanExponent_of_ne hc (s ++ rest)

theorem spanUnsigned_append {rest s r : List Char} {negative : Bool} {lit : NumberLiteral}
    (hd : Delimited rest) (h : spanUnsigned negative s = some (lit, r)) :
    spanUnsigned negative (s ++ rest) = some (lit, r ++ rest) := by
  simp only [spanUnsigned, bind, Option.bind_eq_some_iff, pure, Option.some.injEq] at h
  obtain ⟨⟨_, s₁⟩, h₁, ⟨_, s₂⟩, h₂, ⟨_, s₃⟩, h₃, h₄⟩ := h
  cases h₄
  simp only [spanUnsigned, spanWhole_append hd h₁, spanFraction_append hd h₂,
    spanExponent_append hd h₃, bind, Option.bind_some, pure]

theorem spanNumber_of_ne {c : Char} (hc : c ≠ '-') (s : List Char) :
    spanNumber (c :: s) = spanUnsigned false (c :: s) := by
  unfold spanNumber
  split
  · rename_i heq
    cases heq
    exact absurd rfl hc
  · rfl

theorem spanNumber_append {rest s r : List Char} {lit : NumberLiteral} (hd : Delimited rest)
    (h : spanNumber s = some (lit, r)) : spanNumber (s ++ rest) = some (lit, r ++ rest) := by
  cases s with
  | nil => cases h
  | cons c s =>
    by_cases hc : c = '-'
    · subst hc
      exact spanUnsigned_append (s := s) hd h
    · rw [spanNumber_of_ne hc] at h
      exact (spanNumber_of_ne hc _).trans (spanUnsigned_append hd h)

theorem head_of_spanNumber {s r : List Char} {lit : NumberLiteral}
    (h : spanNumber s = some (lit, r)) :
    ∃ c s', s = c :: s' ∧ (c.isDigit = true ∨ c = '-') := by
  cases s with
  | nil => cases h
  | cons c s =>
    refine ⟨c, s, rfl, ?_⟩
    by_cases hc : c = '-'
    · exact .inr hc
    · left
      rw [spanNumber_of_ne hc] at h
      simp only [spanUnsigned, bind, Option.bind_eq_some_iff] at h
      obtain ⟨⟨ds, r'⟩, hw, _⟩ := h
      by_cases hz : c = '0'
      · rw [hz]; rfl
      · rw [spanWhole_of_ne hz] at hw
        split at hw
        · cases hw
        · rename_i hne
          cases hdigit : c.isDigit with
          | true => rfl
          | false => exact absurd (by simp [spanDigits, hdigit]) hne

/-! ## Tokens -/

theorem next?_of_number {c : Char} (hc : c.isDigit = true ∨ c = '-') (s : List Char) :
    next? (c :: s) = (spanNumber (c :: s)).map fun p => (.number p.1.value?, p.2) := by
  unfold next?
  split
  case h_11 => cases spanNumber (c :: s) <;> rfl
  all_goals
    rename_i heq
    cases heq
    rcases hc with hc | hc <;> cases hc

theorem next?_append {s r rest : List Char} {t : Token} (hd : Delimited rest)
    (h : next? s = some (t, r)) : next? (s ++ rest) = some (t, r ++ rest) := by
  unfold next? at h
  split at h
  case h_10 s =>
    obtain ⟨⟨ps, r'⟩, hs, h⟩ := Option.bind_eq_some_iff.mp h
    cases h
    rw [List.cons_append, next?, spanString_append hs]
    rfl
  case h_11 =>
    obtain ⟨⟨lit, r'⟩, hs, h⟩ := Option.bind_eq_some_iff.mp h
    cases h
    obtain ⟨c, s', rfl, hc⟩ := head_of_spanNumber hs
    have happ := spanNumber_append hd hs
    rw [List.cons_append] at happ ⊢
    rw [next?_of_number hc, happ]
    rfl
  all_goals
    cases h
    rfl

theorem scan_nil : scan [] = some [] := by
  rw [scan]

theorem scan_blank {c : Char} (hc : isBlank c = true) (s : List Char) :
    scan (c :: s) = scan s := by
  rw [scan, if_pos hc]

theorem scan_token {c : Char} (hc : ¬ isBlank c = true) {s r : List Char} {t : Token}
    (h : next? (c :: s) = some (t, r)) : scan (c :: s) = (scan r).map (t :: ·) := by
  rw [scan, if_neg hc]
  split
  · rename_i hn
    rw [hn] at h
    cases h
  · rename_i hn
    rw [hn] at h
    cases h
    rfl

/-- The tokens of a text do not depend on what follows it. -/
theorem scan_append {rest : List Char} (hd : Delimited rest) (s : List Char) {ts : List Token}
    (h : scan s = some ts) : scan (s ++ rest) = (scan rest).map (ts ++ ·) := by
  match s with
  | [] =>
    rw [scan] at h
    cases h
    rw [List.nil_append]
    cases scan rest <;> rfl
  | c :: s =>
    by_cases hc : isBlank c = true
    · rw [scan_blank hc] at h
      rw [List.cons_append, scan_blank hc]
      exact scan_append hd s h
    · cases hn : next? (c :: s) with
      | none => rw [scan, if_neg hc] at h; split at h <;> simp_all
      | some p =>
        obtain ⟨t, r⟩ := p
        rw [scan_token hc hn, Option.map_eq_some_iff] at h
        obtain ⟨ts', hts, rfl⟩ := h
        have happ := next?_append hd hn
        rw [List.cons_append] at happ ⊢
        have hlength : r.length < (c :: s).length := next?_length hn
        rw [scan_token hc happ, scan_append hd r hts, Option.map_map]
        rfl
termination_by s.length
decreasing_by
  · exact Nat.lt_succ_self s.length
  · exact hlength

/-! ## Natural numbers -/

/-- Only zero is written with a leading zero. -/
theorem digitChars_head {n : Nat} (hn : n ≠ 0) :
    ∃ c s, Decimal.digitChars n = c :: s ∧ c ≠ '0' := by
  induction n using Nat.strongRecOn with
  | _ n ih =>
    by_cases hlt : n < 10
    · refine ⟨n.digitChar, [], Nat.toDigits_of_lt_base hlt, ?_⟩
      have hall : ∀ n < 10, n ≠ 0 → n.digitChar ≠ '0' := by decide
      exact hall n hlt hn
    · obtain ⟨c, s, hs, hc⟩ := ih (n / 10) (by omega) (by omega)
      refine ⟨c, s ++ [(n % 10).digitChar], ?_, hc⟩
      rw [Decimal.digitChars] at hs ⊢
      rw [Nat.toDigits_of_base_le (by decide) (by omega), hs, List.cons_append]

theorem isDigit_of_mem_digitChars {n : Nat} {c : Char} (h : c ∈ Decimal.digitChars n) :
    c.isDigit = true := Nat.isDigit_of_mem_toDigits (by decide) (by decide) h

theorem not_isBlank_of_isDigit {c : Char} (hc : c.isDigit = true) : ¬ isBlank c = true := by
  intro hb
  simp only [isBlank, Bool.or_eq_true, beq_iff_eq] at hb
  rcases hb with ((rfl | rfl) | rfl) | rfl <;> cases hc

theorem integerChars_natCast (n : Nat) : Decimal.integerChars n = Decimal.digitChars n := by
  rw [Decimal.integerChars, if_neg (by omega), Int.natAbs_natCast]

theorem exists_digit (n : Nat) :
    ∃ c s, Decimal.digitChars n = c :: s ∧ c.isDigit = true := by
  cases hs : Decimal.digitChars n with
  | nil => exact absurd hs Nat.toDigits_ne_nil
  | cons c s => exact ⟨c, s, rfl, isDigit_of_mem_digitChars (hs ▸ List.mem_cons_self)⟩

theorem spanDigits_digitChars (n : Nat) {rest : List Char} (hd : Delimited rest) :
    spanDigits (Decimal.digitChars n ++ rest) = (Decimal.digitChars n, rest) := by
  have hall : ∀ c ∈ Decimal.digitChars n, c.isDigit = true := fun c => isDigit_of_mem_digitChars
  rw [spanDigits, List.takeWhile_append_of_pos hall, List.dropWhile_append_of_pos hall]
  cases rest with
  | nil => simp
  | cons d r => simp [(hd d rfl).1]

theorem spanWhole_digitChars (n : Nat) {rest : List Char} (hd : Delimited rest) :
    spanWhole (Decimal.digitChars n ++ rest) = some (Decimal.digitChars n, rest) := by
  by_cases hn : n = 0
  · subst hn
    rfl
  · have h := spanDigits_digitChars n hd
    obtain ⟨c, s, hs, hc⟩ := digitChars_head hn
    rw [hs, List.cons_append] at h ⊢
    rw [spanWhole_of_ne hc, h, if_neg (List.cons_ne_nil _ _)]

theorem value?_digitChars {n : Nat} (hn : n < 2 ^ 64) :
    NumberLiteral.value? ⟨false, Decimal.digitChars n, [], none⟩ = some (.integer n) := by
  have hmag : Decimal.ofDigitChars 0 (Decimal.digitChars n) = n := Nat.ofDigitChars_ten_toDigits
  have hrange : Number.integerRange (n : Int) = true := by
    simp only [Number.integerRange, Bool.and_eq_true, decide_eq_true_eq]
    omega
  rw [NumberLiteral.value?]
  simp only [hmag, Bool.false_eq_true, ↓reduceIte, hrange, false_and, not_false_eq_true, and_self]

/-- A natural number of 64 bits is scanned as it was written. -/
theorem next?_integerChars {n : Nat} (hn : n < 2 ^ 64) {rest : List Char} (hd : Delimited rest) :
    next? (Decimal.integerChars n ++ rest) = some (.number (some (.integer n)), rest) := by
  have hfraction : spanFraction rest = some ([], rest) := spanFraction_append (s := []) hd rfl
  have hexponent : spanExponent rest = some (none, rest) := spanExponent_append (s := []) hd rfl
  have hspan : spanUnsigned false (Decimal.digitChars n ++ rest) =
      some (⟨false, Decimal.digitChars n, [], none⟩, rest) := by
    simp only [spanUnsigned, spanWhole_digitChars n hd, hfraction, hexponent, bind,
      Option.bind_some, pure]
  obtain ⟨c, s, hs, hc⟩ := exists_digit n
  have hminus : c ≠ '-' := by rintro rfl; cases hc
  have hvalue := value?_digitChars hn
  rw [integerChars_natCast]
  rw [hs] at hspan hvalue ⊢
  rw [List.cons_append] at hspan ⊢
  rw [next?_of_number (.inl hc), spanNumber_of_ne hminus, hspan, Option.map_some, hvalue]

end DocStore.Token
