import DocStore.Proofs.Filter.Literal

/-!
# Quoting in escaped literals

A reader of filter strings takes a backslash together with the character after it, which is quoted
then; every other character is bare. `glyphs?` is what the reader takes from a text. From an escaped
literal it takes the characters of the literal, and the reserved ones are quoted
(`escape_lossless`). Runs of `&` and of `|` are quoted pair by pair from the left. A run of odd
length leaves its last character over, which is bare like the one before it: these are the only bare
pairs (`bare_pairs_of_escape`).
-/

namespace DocStore.Filter

/-- A character of a text, as a reader takes it. -/
inductive Glyph where
  | bare (char : Char)
  | quoted (char : Char)
  deriving DecidableEq

namespace Glyph

def char : Glyph → Char
  | bare c => c
  | quoted c => c

/-- What is reserved is quoted, and what is quoted is reserved or a character of pairs. -/
def Apt : Glyph → Prop
  | bare c => isReservedChar c = false
  | quoted c => isReservedChar c = true ∨ isPairChar c = true

end Glyph

/-- What a reader takes from a text, from left to right. It fails on a text that ends in a backslash
which quotes nothing. -/
def glyphs? : List Char → Option (List Glyph)
  | [] => some []
  | [c] => if c = '\\' then none else some [.bare c]
  | c :: d :: rest =>
    if c = '\\' then (glyphs? rest).map (.quoted d :: ·)
    else (glyphs? (d :: rest)).map (.bare c :: ·)

theorem glyphs?_quoted (c : Char) (s : List Char) :
    glyphs? ('\\' :: c :: s) = (glyphs? s).map (.quoted c :: ·) := if_pos rfl

theorem glyphs?_bare {c : Char} (hc : c ≠ '\\') (s : List Char) :
    glyphs? (c :: s) = (glyphs? s).map (.bare c :: ·) := by
  cases s <;> simp [glyphs?, hc]

/-- Without the quoting backslashes a text consists of the characters of its glyphs. -/
theorem unescape_of_glyphs? {s : List Char} {gs : List Glyph} (h : glyphs? s = some gs) :
    unescape s = gs.map Glyph.char := by
  fun_induction glyphs? s generalizing gs with
  | case1 => cases h; rfl
  | case2 => cases h
  | case3 c hc => cases h; rfl
  | case4 d rest ih =>
    obtain ⟨gs', hgs, rfl⟩ := Option.map_eq_some_iff.mp h
    rw [unescape, if_pos rfl, ih hgs]
    rfl
  | case5 c d rest hc ih =>
    obtain ⟨gs', hgs, rfl⟩ := Option.map_eq_some_iff.mp h
    rw [unescape_cons hc, ih hgs]
    rfl

/-! ## Glyphs of escaped literals -/

def escapeChar (c : Char) : List Char := if isReservedChar c then ['\\', c] else [c]

theorem escapeChars_pair {c : Char} (hc : isPairChar c = true) (s : List Char) :
    escapeChars (c :: c :: s) = '\\' :: c :: c :: escapeChars s := by
  simp [escapeChars, hc]

/-- A character that does not begin a pair is escaped by itself. -/
theorem escapeChars_cons {c : Char} {s : List Char}
    (h : isPairChar c = true → s.head? ≠ some c) :
    escapeChars (c :: s) = escapeChar c ++ escapeChars s := by
  cases s with
  | nil => simp only [escapeChars, escapeChar, List.append_nil]
  | cons d rest =>
    have hpair : ¬ (isPairChar c && c == d) = true := by
      simp only [Bool.and_eq_true, beq_iff_eq, not_and]
      rintro hc rfl
      exact h hc rfl
    rw [escapeChars, if_neg hpair, escapeChar]
    split <;> rfl

/-- A literal is escaped from the left: a pair as a whole, any other character by itself. -/
@[elab_as_elim]
theorem escape_induction {P : List Char → Prop} (nil : P [])
    (pair : ∀ c s, isPairChar c = true → P s → P (c :: c :: s))
    (char : ∀ c s, (isPairChar c = true → s.head? ≠ some c) → P s → P (c :: s)) :
    ∀ s, P s
  | [] => nil
  | [c] => char c [] (fun _ h => nomatch h) nil
  | c :: d :: rest => by
    have ih := escape_induction nil pair char rest
    have ih' := escape_induction nil pair char (d :: rest)
    by_cases h : isPairChar c = true ∧ d = c
    · obtain ⟨hc, rfl⟩ := h
      exact pair d rest hc ih
    · exact char c (d :: rest) (fun hc hd => h ⟨hc, Option.some.inj hd⟩) ih'

def glyphOf (c : Char) : Glyph := if isReservedChar c then .quoted c else .bare c

theorem glyphs?_escapeChar_append (c : Char) (s : List Char) :
    glyphs? (escapeChar c ++ s) = (glyphs? s).map (glyphOf c :: ·) := by
  unfold escapeChar glyphOf
  split
  · exact glyphs?_quoted c s
  · rename_i hc
    exact glyphs?_bare (ne_of_not_reserved hc) s

theorem apt_glyphOf (c : Char) : (glyphOf c).Apt := by
  unfold glyphOf
  split
  · rename_i hc
    exact .inl hc
  · rename_i hc
    exact Bool.eq_false_iff.mpr hc

theorem glyphs?_pair_append {c : Char} (hc : isPairChar c = true) (s : List Char) :
    glyphs? ('\\' :: c :: c :: s) = (glyphs? s).map (.quoted c :: .bare c :: ·) := by
  rw [glyphs?_quoted, glyphs?_bare (ne_of_not_reserved (not_reserved_of_isPairChar hc)),
    Option.map_map]
  rfl

theorem glyphs?_escapeChars (s : List Char) :
    ∃ gs, glyphs? (escapeChars s) = some gs ∧ ∀ g ∈ gs, g.Apt := by
  induction s using escape_induction with
  | nil => exact ⟨[], rfl, fun _ h => nomatch h⟩
  | pair c s hc ih =>
    obtain ⟨gs, hgs, hapt⟩ := ih
    refine ⟨.quoted c :: .bare c :: gs, ?_, ?_⟩
    · rw [escapeChars_pair hc, glyphs?_pair_append hc, hgs]
      rfl
    · have hbare : (Glyph.bare c).Apt := Bool.eq_false_iff.mpr (not_reserved_of_isPairChar hc)
      exact List.forall_mem_cons.mpr ⟨.inr hc, List.forall_mem_cons.mpr ⟨hbare, hapt⟩⟩
  | char c s hc ih =>
    obtain ⟨gs, hgs, hapt⟩ := ih
    refine ⟨glyphOf c :: gs, ?_, List.forall_mem_cons.mpr ⟨apt_glyphOf c, hapt⟩⟩
    rw [escapeChars_cons hc, glyphs?_escapeChar_append, hgs]
    rfl

/-- An escaped literal can be read to its end, and what is read are the characters of the literal,
each quoted as it has to be. So different literals have different escaped forms. A literal that is
passed on as it is would not be changed by escaping either. -/
theorem escape_lossless :
    (∀ s : String, ∃ gs, glyphs? (escape s).toList = some gs ∧ gs.map Glyph.char = s.toList ∧
      ∀ g ∈ gs, g.Apt) ∧
    (∀ s t : String, escape s = escape t → s = t) ∧
    ∀ s : String, needsEscaping s.toList = false →
      escape s = s ∧ String.ofList (escapeChars s.toList) = s := by
  refine ⟨fun s => ?_, fun s t h => ?_, fun s h => ?_⟩
  · obtain ⟨gs, hgs, hapt⟩ := glyphs?_escapeChars s.toList
    rw [← toList_escape] at hgs
    exact ⟨gs, hgs, by rw [← unescape_of_glyphs? hgs, unescape_escape], hapt⟩
  · rw [← String.toList_inj, ← unescape_escape s, h, unescape_escape]
  · rw [escapeChars_eq_self h, String.ofList_toList, escape, if_neg (by simp [h])]
    exact ⟨rfl, rfl⟩

/-! ## Runs -/

/-- Escaping the parts of a literal one by one makes no difference where no pair is cut. -/
theorem escapeChars_append {a b : List Char}
    (h : ∀ c, isPairChar c = true → a.getLast? = some c → b.head? ≠ some c) :
    escapeChars (a ++ b) = escapeChars a ++ escapeChars b := by
  induction a using escape_induction with
  | nil => rfl
  | pair c s hc ih =>
    have hs : ∀ d, isPairChar d = true → s.getLast? = some d → b.head? ≠ some d := by
      intro d hd hlast
      exact h d hd (by rw [List.getLast?_cons, List.getLast?_cons, hlast]; rfl)
    rw [List.cons_append, List.cons_append, escapeChars_pair hc, escapeChars_pair hc, ih hs]
    rfl
  | char c s hc ih =>
    have hs : ∀ d, isPairChar d = true → s.getLast? = some d → b.head? ≠ some d := by
      intro d hd hlast
      exact h d hd (by rw [List.getLast?_cons, hlast]; rfl)
    have hseam : isPairChar c = true → (s ++ b).head? ≠ some c := by
      intro hp
      cases s with
      | nil => exact h c hp rfl
      | cons d s => exact hc hp
    rw [List.cons_append, escapeChars_cons hseam, escapeChars_cons hc, ih hs, List.append_assoc]

theorem glyphs?_append {a b : List Char} {gs : List Glyph} (h : glyphs? a = some gs) :
    glyphs? (a ++ b) = (glyphs? b).map (gs ++ ·) := by
  fun_induction glyphs? a generalizing gs with
  | case1 => cases h; simp
  | case2 => cases h
  | case3 c hc => cases h; exact glyphs?_bare hc b
  | case4 d rest ih =>
    obtain ⟨gs', hgs, rfl⟩ := Option.map_eq_some_iff.mp h
    rw [List.cons_append, List.cons_append, glyphs?_quoted, ih hgs, Option.map_map]
    rfl
  | case5 c d rest hc ih =>
    obtain ⟨gs', hgs, rfl⟩ := Option.map_eq_some_iff.mp h
    rw [List.cons_append, glyphs?_bare hc, ih hgs, Option.map_map]
    rfl

/-- The glyphs of a run of a pair character: every other one is bare, and so is the last. -/
def runGlyphs (c : Char) : Nat → List Glyph
  | 0 => []
  | 1 => [.bare c]
  | n + 2 => .quoted c :: .bare c :: runGlyphs c n

theorem glyphs?_run {c : Char} (hc : isPairChar c = true) (n : Nat) :
    glyphs? (escapeChars (List.replicate n c)) = some (runGlyphs c n) := by
  fun_induction runGlyphs c n with
  | case1 => rfl
  | case2 =>
    have hr := not_reserved_of_isPairChar hc
    rw [List.replicate_one, escapeChars, if_neg hr, glyphs?_bare (ne_of_not_reserved hr)]
    rfl
  | case3 n ih =>
    rw [List.replicate_succ, List.replicate_succ, escapeChars_pair hc, glyphs?_pair_append hc, ih]
    rfl

theorem runGlyphs_bare (c : Char) (n j : Nat) :
    (runGlyphs c n)[j]? = some (.bare c) ↔ j < n ∧ (j % 2 = 1 ∨ j + 1 = n) := by
  fun_induction runGlyphs c n generalizing j with
  | case1 => simp
  | case2 => cases j <;> simp
  | case3 n ih =>
    match j with
    | 0 => simp
    | 1 => simp
    | j + 2 =>
      rw [List.getElem?_cons_succ, List.getElem?_cons_succ, ih]
      omega

/-- From place `start` on, the text holds a character `n` times, and not right before or after. -/
def IsRun (s : List Char) (c : Char) (start n : Nat) : Prop :=
  ∃ before after, s = before ++ (List.replicate n c ++ after) ∧ before.length = start ∧
    before.getLast? ≠ some c ∧ after.head? ≠ some c

theorem IsRun.getElem?_end {s : List Char} {c : Char} {start n : Nat} (h : IsRun s c start n) :
    s[start + n]? ≠ some c := by
  obtain ⟨before, after, rfl, rfl, -, hhead⟩ := h
  rw [← List.append_assoc, List.getElem?_append_right (by simp)]
  simpa [List.head?_eq_getElem?] using hhead

theorem exists_leading_run (c : Char) (s : List Char) :
    ∃ n rest, s = List.replicate n c ++ rest ∧ rest.head? ≠ some c := by
  induction s with
  | nil => exact ⟨0, [], rfl, fun h => nomatch h⟩
  | cons d s ih =>
    by_cases hd : d = c
    · obtain ⟨n, rest, hs, hrest⟩ := ih
      exact ⟨n + 1, rest, by rw [hd, hs, List.replicate_succ, List.cons_append], hrest⟩
    · exact ⟨0, d :: s, rfl, fun h => hd (Option.some.inj h)⟩

theorem exists_trailing_run (c : Char) (s : List Char) :
    ∃ rest n, s = rest ++ List.replicate n c ∧ rest.getLast? ≠ some c := by
  obtain ⟨n, rest, hs, hrest⟩ := exists_leading_run c s.reverse
  refine ⟨rest.reverse, n, ?_, by rwa [List.getLast?_reverse]⟩
  rw [← List.reverse_replicate, ← List.reverse_append, ← hs, List.reverse_reverse]

theorem exists_isRun {s : List Char} {i : Nat} {c : Char} (h : s[i]? = some c) :
    ∃ start n, IsRun s c start n ∧ start ≤ i ∧ i < start + n := by
  obtain ⟨hi, rfl⟩ := List.getElem?_eq_some_iff.mp h
  obtain ⟨before, m, hbefore, hlast⟩ := exists_trailing_run s[i] (s.take i)
  obtain ⟨n, after, hafter, hhead⟩ := exists_leading_run s[i] (s.drop (i + 1))
  have hlength : i = before.length + m := by
    have := congrArg List.length hbefore
    simp only [List.length_take, List.length_append, List.length_replicate] at this
    omega
  have hs : s = before ++ (List.replicate (m + (n + 1)) s[i] ++ after) := by
    calc s = s.take i ++ s[i] :: s.drop (i + 1) := by simp
      _ = (before ++ List.replicate m s[i]) ++
          s[i] :: (List.replicate n s[i] ++ after) := by rw [← hbefore, ← hafter]
      _ = before ++ (List.replicate (m + (n + 1)) s[i] ++ after) := by
        rw [← List.replicate_append_replicate, List.replicate_succ]
        simp only [List.append_assoc, List.cons_append]
  exact ⟨before.length, m + (n + 1), ⟨before, after, hs, rfl, hlast, hhead⟩, by omega, by omega⟩

theorem map_char_of_escapeChars {s : List Char} {gs : List Glyph}
    (h : glyphs? (escapeChars s) = some gs) : gs.map Glyph.char = s := by
  rw [← unescape_of_glyphs? h, unescape_escapeChars]

/-- A run is quoted as if it stood alone. -/
theorem glyphs_of_isRun {s : List Char} {c : Char} {start n : Nat} {gs : List Glyph}
    (hc : isPairChar c = true) (hrun : IsRun s c start n) (h : glyphs? (escapeChars s) = some gs)
    {j : Nat} (hj : j < n) : gs[start + j]? = (runGlyphs c n)[j]? := by
  obtain ⟨before, after, rfl, rfl, hlast, hhead⟩ := hrun
  have hpos : n ≠ 0 := by omega
  have hbefore : ∀ d, isPairChar d = true → before.getLast? = some d →
      (List.replicate n c ++ after).head? ≠ some d := by
    intro d _ hd hd'
    rw [List.head?_append, List.head?_replicate, if_neg hpos] at hd'
    cases hd'
    exact hlast hd
  have hafter : ∀ d, isPairChar d = true → (List.replicate n c).getLast? = some d →
      after.head? ≠ some d := by
    intro d _ hd
    rw [List.getLast?_replicate, if_neg hpos] at hd
    cases hd
    exact hhead
  obtain ⟨gb, hgb, -⟩ := glyphs?_escapeChars before
  obtain ⟨ga, hga, -⟩ := glyphs?_escapeChars after
  rw [escapeChars_append hbefore, escapeChars_append hafter, glyphs?_append hgb,
    glyphs?_append (glyphs?_run hc n), hga] at h
  cases h
  have hlength : gb.length = before.length := by
    rw [← map_char_of_escapeChars hgb, List.length_map]
  have hj' : j < (runGlyphs c n).length := by
    rw [← List.length_map, map_char_of_escapeChars (glyphs?_run hc n), List.length_replicate]
    exact hj
  rw [List.getElem?_append_right (by omega), hlength, Nat.add_sub_cancel_left,
    List.getElem?_append_left hj']

theorem bare_in_run {s : List Char} {c : Char} {start n : Nat} {gs : List Glyph}
    (hc : isPairChar c = true) (hrun : IsRun s c start n) (h : glyphs? (escapeChars s) = some gs)
    {j : Nat} (hj : j < n) : gs[start + j]? = some (.bare c) ↔ j % 2 = 1 ∨ j + 1 = n := by
  rw [glyphs_of_isRun hc hrun h hj, runGlyphs_bare, and_iff_right hj]

/-- The bare pairs of an escaped literal are the last two characters of the runs of `&` or `|` of an
odd length from three on. -/
theorem bare_pairs_of_escape (s : String) :
    ∃ gs, glyphs? (escape s).toList = some gs ∧ ∀ c, isPairChar c = true → ∀ i,
      (gs[i]? = some (.bare c) ∧ gs[i + 1]? = some (.bare c)) ↔
        ∃ start n, IsRun s.toList c start n ∧ n % 2 = 1 ∧ 3 ≤ n ∧ i + 2 = start + n := by
  obtain ⟨gs, hgs, -⟩ := glyphs?_escapeChars s.toList
  refine ⟨gs, by rw [toList_escape, hgs], fun c hc i => ⟨?_, ?_⟩⟩
  · rintro ⟨hi, hi'⟩
    have hchar : ∀ k : Nat, gs[k]? = some (.bare c) → s.toList[k]? = some c := by
      intro k hk
      rw [← map_char_of_escapeChars hgs, List.getElem?_map, hk]
      rfl
    obtain ⟨start, n, hrun, hstart, hn⟩ := exists_isRun (hchar i hi)
    obtain ⟨j, rfl⟩ := Nat.exists_eq_add_of_le hstart
    have hend : start + (j + 1) ≠ start + n := fun h => hrun.getElem?_end (h ▸ hchar _ hi')
    have hj : j < n := by omega
    have hj' : j + 1 < n := by omega
    have hbare := (bare_in_run hc hrun hgs hj).mp hi
    have hbare' := (bare_in_run hc hrun hgs hj').mp hi'
    exact ⟨start, n, hrun, by omega, by omega, by omega⟩
  · rintro ⟨start, n, hrun, hodd, hn, hi⟩
    obtain rfl : i = start + (n - 2) := by omega
    have hj : n - 2 < n := by omega
    have hj' : n - 2 + 1 < n := by omega
    exact ⟨(bare_in_run hc hrun hgs hj).mpr (.inl (by omega)),
      (bare_in_run hc hrun hgs hj').mpr (.inr (by omega))⟩

/-- Not every pair is broken: of three `&` in a row the last two are bare. -/
theorem not_all_pairs_broken :
    ¬ ∀ (s : String) (gs : List Glyph), glyphs? (escape s).toList = some gs →
      ∀ c, isPairChar c = true → ∀ i,
        ¬ (gs[i]? = some (.bare c) ∧ gs[i + 1]? = some (.bare c)) := by
  intro hall
  exact hall "&&&" [.quoted '&', .bare '&', .bare '&'] (by decide +kernel) '&' (by decide) 1
    ⟨rfl, rfl⟩

end DocStore.Filter
