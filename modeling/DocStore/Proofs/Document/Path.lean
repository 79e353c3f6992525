import DocStore.Document.Path
import DocStore.Proofs.Text.Utf8

/-!
# Absolute paths

The absolute form of an absolute path has its segments and is the same path (`same_absolute`).
Absolute forms are `Canonical`: roots behind which segments are pushed one at a time, and a slash
where a directory is meant. A canonical path is its own absolute form, so absolute forms do not
change when they are taken again if the working directory is spelled in this way
(`idempotent_iff_isNormal`). They stay canonical as texts, even where bytes that are no text are
replaced (`Canonical.reread`).
-/

namespace DocStore.Path

/-! ## Pieces -/

theorem pieces_ne_nil (b : List UInt8) : pieces b ≠ [] := by
  cases b with
  | nil => exact List.cons_ne_nil _ _
  | cons x rest =>
    rw [pieces]
    split
    · exact List.cons_ne_nil _ _
    · split <;> exact List.cons_ne_nil _ _

theorem pieces_slash (rest : List UInt8) : pieces (slash :: rest) = [] :: pieces rest := rfl

/-- Bytes without a slash belong to the first piece. -/
theorem pieces_append {a : List UInt8} (ha : slash ∉ a) {b first : List UInt8}
    {others : List (List UInt8)} (hb : pieces b = first :: others) :
    pieces (a ++ b) = (a ++ first) :: others := by
  induction a with
  | nil => exact hb
  | cons x a ih =>
    rw [List.mem_cons, not_or] at ha
    rw [List.cons_append, pieces, if_neg (Ne.symm ha.1), ih ha.2]
    rfl

theorem pieces_of_not_mem {s : List UInt8} (h : slash ∉ s) : pieces s = [s] := by
  have := pieces_append h (b := []) rfl
  rwa [List.append_nil] at this

theorem pieces_append_slash (a b : List UInt8) :
    pieces (a ++ slash :: b) = pieces a ++ pieces b := by
  induction a with
  | nil => rfl
  | cons x a ih =>
    rw [List.cons_append, pieces, pieces, ih]
    split
    · rfl
    · cases hp : pieces a with
      | nil => exact absurd hp (pieces_ne_nil a)
      | cons first others => rfl

theorem not_mem_pieces {b s : List UInt8} (h : s ∈ pieces b) : slash ∉ s := by
  induction b generalizing s with
  | nil => rw [pieces, List.mem_singleton] at h; simp [h]
  | cons x rest ih =>
    rw [pieces] at h
    split at h
    · rcases List.mem_cons.mp h with rfl | h
      · simp
      · exact ih h
    · rename_i hx
      split at h
      · rw [List.mem_singleton] at h
        simp [h, Ne.symm hx]
      · rename_i first others hp
        rcases List.mem_cons.mp h with rfl | h
        · rw [List.mem_cons, not_or]
          exact ⟨Ne.symm hx, ih (hp ▸ List.mem_cons_self)⟩
        · exact ih (hp ▸ List.mem_cons_of_mem _ h)

/-! ## Segments -/

/-- The piece names something. -/
def named (s : List UInt8) : Bool := !s.isEmpty && s != [dot]

theorem segments_eq (p : Path) : p.segments = (pieces p.bytes).filter named := rfl

/-- What stands between two slashes of a path and names something. -/
structure IsSegment (s : List UInt8) : Prop where
  named : named s = true
  slash : slash ∉ s

theorem named_iff {s : List UInt8} : named s = true ↔ s ≠ [] ∧ s ≠ [dot] := by
  simp [named]

theorem IsSegment.ne_nil {s : List UInt8} (h : IsSegment s) : s ≠ [] := (named_iff.mp h.named).1

theorem isSegment_of_mem {p : Path} {s : List UInt8} (h : s ∈ p.segments) : IsSegment s :=
  ⟨(List.mem_filter.mp h).2, not_mem_pieces (List.mem_filter.mp h).1⟩

theorem root_eq (p : Path) : p.root = [slash] ∨ p.root = [slash, slash] := by
  unfold root
  split
  · exact .inr rfl
  · exact .inl rfl

theorem bytes_of_isAbsolute {p : Path} (h : p.isAbsolute = true) :
    ∃ rest, p.bytes = slash :: rest := by
  rw [isAbsolute, beq_iff_eq] at h
  exact ⟨p.bytes.tail, (List.head?_eq_some_iff.mp h).elim fun t ht => by rw [ht]; rfl⟩

theorem startsAtDot_of_isAbsolute {p : Path} (h : p.isAbsolute = true) : p.startsAtDot = false := by
  obtain ⟨rest, hb⟩ := bytes_of_isAbsolute h
  rw [startsAtDot, hb, pieces_slash]
  rfl

/-! ## Pushing segments -/

section

variable {base s : List UInt8}

/-- There is one slash before a segment that is pushed. -/
theorem exists_push (h : base ≠ []) (s : List UInt8) : ∃ b, push base s = b ++ slash :: s ∧
    (base = b ++ [slash] ∨ base = b ∧ base.getLast? ≠ some slash) := by
  obtain ⟨init, last, rfl⟩ := List.eq_nil_or_concat base |>.resolve_left h
  by_cases hlast : last = slash
  · exact ⟨init, by simp [push, hlast], .inl (by simp [hlast])⟩
  · exact ⟨init ++ [last], by simp [push, hlast], .inr ⟨by simp, by simp [hlast]⟩⟩

theorem push_ne_nil (h : base ≠ []) (s : List UInt8) : push base s ≠ [] := by
  obtain ⟨b, hpush, _⟩ := exists_push h s
  rw [hpush]
  exact List.append_ne_nil_of_right_ne_nil b (List.cons_ne_nil _ _)

theorem head?_push (h : base ≠ []) (s : List UInt8) : (push base s).head? = base.head? := by
  obtain ⟨first, rest, rfl⟩ := List.exists_cons_of_ne_nil h
  rw [push, List.getLast?_cons]
  dsimp only
  split <;> rfl

theorem getLast?_push_nil (h : base ≠ []) : (push base []).getLast? = some slash := by
  obtain ⟨b, hpush, _⟩ := exists_push h []
  rw [hpush, List.getLast?_append]
  rfl

theorem push_of_getLast? (h : base.getLast? = some slash) (s : List UInt8) :
    push base s = base ++ s := by
  rw [push, h]
  exact if_pos rfl

theorem push_of_getLast?_ne (h : base ≠ []) (hlast : base.getLast? ≠ some slash)
    (s : List UInt8) : push base s = base ++ slash :: s := by
  rw [List.getLast?_eq_some_getLast h, ne_eq, Option.some.injEq] at hlast
  rw [push, List.getLast?_eq_some_getLast h]
  exact if_neg hlast

theorem push_push_nil (h : base ≠ []) (s : List UInt8) : push (push base []) s = push base s := by
  rw [push_of_getLast? (getLast?_push_nil h)]
  obtain ⟨init, last, rfl⟩ := List.eq_nil_or_concat base |>.resolve_left h
  by_cases hlast : last = slash <;> simp [push, hlast]

theorem getLast?_push (h : base ≠ []) (hs : IsSegment s) : (push base s).getLast? ≠ some slash := by
  obtain ⟨b, hpush, _⟩ := exists_push h s
  rw [hpush, List.getLast?_append, List.getLast?_cons, List.getLast?_eq_some_getLast hs.ne_nil]
  intro hlast
  exact hs.slash (Option.some.inj hlast ▸ List.getLast_mem hs.ne_nil)

theorem segments_push (h : base ≠ []) (hs : slash ∉ s) :
    (Path.mk (push base s)).segments = (Path.mk base).segments ++ [s].filter named := by
  obtain ⟨b, hpush, hbase | ⟨hbase, _⟩⟩ := exists_push h s
  · rw [segments_eq, segments_eq, hpush, hbase, pieces_append_slash, pieces_append_slash,
      pieces_of_not_mem hs, List.filter_append, List.filter_append]
    exact congrArg (· ++ _) (List.append_nil _).symm
  · rw [segments_eq, segments_eq, hpush, hbase, pieces_append_slash, pieces_of_not_mem hs,
      List.filter_append]

/-- The slashes at the start are those of the root. -/
theorem root_push (h : base ≠ []) (hs : slash ∉ s) :
    (Path.mk (push base s)).root = (Path.mk base).root := by
  have hnone : s.takeWhile (· == slash) = [] := by
    cases s with
    | nil => rfl
    | cons x rest =>
      have hx : x ≠ slash := fun he => hs (he ▸ List.mem_cons_self)
      rw [List.takeWhile_cons, if_neg (by simpa using hx)]
  suffices hslashes : (push base s).takeWhile (· == slash) = base.takeWhile (· == slash) by
    rw [root, root, hslashes]
  obtain ⟨b, hpush, hbase | ⟨hbase, hlast⟩⟩ := exists_push h s
  · have hsplit : push base s = base ++ s := by rw [hpush, hbase]; simp
    rw [hsplit, List.takeWhile_append, hnone, List.append_nil]
    split
    · rename_i hall
      exact ((List.takeWhile_prefix _).eq_of_length hall).symm
    · rfl
  · have hnot : (base.takeWhile (· == slash)).length ≠ base.length := by
      intro hall
      have hslashes : base.all (· == slash) = true := by
        rw [← (List.takeWhile_prefix _).eq_of_length hall]
        exact List.all_takeWhile
      rw [List.getLast?_eq_some_getLast h, ne_eq, Option.some.injEq] at hlast
      exact hlast (by simpa using List.all_eq_true.mp hslashes _ (List.getLast_mem h))
    rw [hpush, ← hbase, List.takeWhile_append, if_neg hnot]

theorem foldl_push_ne_nil (h : base ≠ []) (segments : List (List UInt8)) :
    segments.foldl push base ≠ [] := by
  induction segments generalizing base with
  | nil => exact h
  | cons s rest ih => exact ih (push_ne_nil h s)

theorem segments_foldl_push (h : base ≠ []) {segments : List (List UInt8)}
    (hall : ∀ s ∈ segments, IsSegment s) :
    (Path.mk (segments.foldl push base)).segments = (Path.mk base).segments ++ segments := by
  induction segments generalizing base with
  | nil => exact (List.append_nil _).symm
  | cons s rest ih =>
    obtain ⟨hs, hrest⟩ := List.forall_mem_cons.mp hall
    rw [List.foldl_cons, ih (push_ne_nil h s) hrest, segments_push h hs.slash,
      List.filter_cons_of_pos hs.named, List.append_assoc]
    rfl

end

/-! ## Absolute forms -/

/-- What holds of a path holds where the segments of another one are pushed behind it, if it is kept
at each step. -/
theorem pushAll_induction {motive : List UInt8 → Prop} {base : List UInt8} {p : Path}
    (h : motive base) (hsegment : ∀ b, ∀ s ∈ p.segments, motive b → motive (push b s))
    (hmark : ∀ b, motive b → motive (push b [])) : motive (pushAll base p) := by
  have hwhole : ∀ segments ⊆ p.segments, ∀ b, motive b → motive (segments.foldl push b) := by
    intro segments
    induction segments with
    | nil => exact fun _ b hb => hb
    | cons s rest ih =>
      intro hsub b hb
      obtain ⟨hs, hrest⟩ := List.cons_subset.mp hsub
      exact ih hrest _ (hsegment b s hs hb)
  have hfold := hwhole p.segments (List.Subset.refl _) base h
  rw [pushAll]
  split
  · exact hmark _ hfold
  · exact hfold

section

variable {directory : Option WorkingDirectory} {p q : Path} {base : List UInt8}

theorem head?_pushAll (h : base.head? = some slash) : (pushAll base p).head? = some slash := by
  have hpush : ∀ b s, b.head? = some slash → (push b s).head? = some slash := by
    intro b s hb
    rw [head?_push (by rintro rfl; cases hb), hb]
  exact pushAll_induction h (fun b s _ => hpush b s) fun b => hpush b []

theorem segments_pushAll (h : base ≠ []) :
    (Path.mk (pushAll base p)).segments = (Path.mk base).segments ++ p.segments := by
  have hfold := segments_foldl_push h fun s hs => isSegment_of_mem (p := p) hs
  rw [pushAll]
  split
  · rw [segments_push (foldl_push_ne_nil h _) List.not_mem_nil, hfold]
    exact List.append_nil _
  · exact hfold

theorem head?_root (p : Path) : p.root.head? = some slash := by
  rcases root_eq p with h | h <;> rw [h] <;> rfl

theorem root_ne_nil (p : Path) : p.root ≠ [] := by
  rcases root_eq p with h | h <;> rw [h] <;> exact List.cons_ne_nil _ _

theorem head?_base (h : p.base? directory = some base) : base.head? = some slash := by
  rw [base?] at h
  split at h
  · rw [← Option.some.inj h]
    exact head?_root p
  · obtain ⟨d, _, rfl⟩ := Option.map_eq_some_iff.mp h
    exact beq_iff_eq.mp d.isAbsolute

/-- The path has an absolute form: it is not empty, and a relative one has a directory to start
from. -/
def Placed (directory : Option WorkingDirectory) (p : Path) : Prop :=
  p.bytes ≠ [] ∧ (p.isAbsolute = true ∨ directory.isSome = true)

theorem absolute?_ok (h : p.absolute? directory = some q) :
    p.Placed directory ∧ ∃ base, p.base? directory = some base ∧ q = ⟨pushAll base p⟩ := by
  unfold absolute? at h
  split at h
  · cases h
  · rename_i hne
    obtain ⟨base, hbase, rfl⟩ := Option.map_eq_some_iff.mp h
    refine ⟨⟨by simpa using hne, ?_⟩, base, hbase, rfl⟩
    rw [base?] at hbase
    split at hbase
    · exact .inl ‹_›
    · obtain ⟨d, rfl, _⟩ := Option.map_eq_some_iff.mp hbase
      exact .inr rfl

theorem Placed.exists_absolute (h : p.Placed directory) : ∃ q, p.absolute? directory = some q := by
  rw [absolute?, if_neg (by simpa using h.1), base?]
  rcases h.2 with habsolute | hdirectory
  · rw [if_pos habsolute]
    exact ⟨_, rfl⟩
  · obtain ⟨d, rfl⟩ := Option.isSome_iff_exists.mp hdirectory
    split <;> exact ⟨_, rfl⟩

theorem absolute?_of_not_placed (h : ¬ p.Placed directory) : p.absolute? directory = none := by
  cases hq : p.absolute? directory with
  | none => rfl
  | some q => exact absurd (absolute?_ok hq).1 h

theorem isAbsolute_absolute (h : p.absolute? directory = some q) : q.isAbsolute = true := by
  obtain ⟨_, base, hbase, rfl⟩ := absolute?_ok h
  exact beq_iff_eq.mpr (head?_pushAll (head?_base hbase))

theorem ne_nil_of_isAbsolute (h : p.isAbsolute = true) : p.bytes ≠ [] := by
  obtain ⟨rest, hb⟩ := bytes_of_isAbsolute h
  rw [hb]
  exact List.cons_ne_nil _ _

/-- The working directory makes no difference to an absolute path. -/
theorem absolute?_of_isAbsolute (directory : Option WorkingDirectory) (h : p.isAbsolute = true) :
    p.absolute? directory = some ⟨pushAll p.root p⟩ := by
  rw [absolute?, if_neg (by simpa using ne_nil_of_isAbsolute h), base?, if_pos h]
  rfl

/-- The absolute form of an absolute path is the same path. -/
theorem same_absolute (hp : p.isAbsolute = true) (h : p.absolute? directory = some q) :
    q.same p = true := by
  have hq := isAbsolute_absolute h
  have hsegments : q.segments = p.segments := by
    rw [absolute?_of_isAbsolute directory hp, Option.some.injEq] at h
    rw [← h, segments_pushAll (root_ne_nil p)]
    rcases root_eq p with h | h <;> rw [h] <;> rfl
  rw [same, hp, hq, startsAtDot_of_isAbsolute hp, startsAtDot_of_isAbsolute hq, hsegments]
  simp

/-! ## Absolute forms of absolute forms -/

/-- The bytes are those of an absolute form. -/
inductive Canonical : List UInt8 → Prop where
  | root {b : List UInt8} (h : b = [slash] ∨ b = [slash, slash]) : Canonical b
  | segment {b s : List UInt8} (h : Canonical b) (hs : IsSegment s) : Canonical (push b s)
  | mark {b : List UInt8} (h : Canonical b) : Canonical (push b [])

theorem Canonical.head? {b : List UInt8} (h : Canonical b) : b.head? = some Path.slash := by
  induction h with
  | root h => rcases h with rfl | rfl <;> rfl
  | segment _ _ ih => rw [head?_push (by rintro rfl; cases ih), ih]
  | mark _ ih => rw [head?_push (by rintro rfl; cases ih), ih]

theorem Canonical.ne_nil {b : List UInt8} (h : Canonical b) : b ≠ [] := by
  rintro rfl
  cases h.head?

theorem canonical_pushAll (h : Canonical base) (p : Path) : Canonical (pushAll base p) :=
  pushAll_induction h (fun _ _ hs hb => .segment hb (isSegment_of_mem hs)) fun _ => .mark

/-- A segment that follows all segments of a path is pushed behind the last one. -/
theorem push_pushAll (h : base ≠ []) (p : Path) (s : List UInt8) :
    push (pushAll base p) s = push (p.segments.foldl push base) s := by
  rw [pushAll]
  split
  · exact push_push_nil (foldl_push_ne_nil h _) s
  · rfl

/-- A canonical path is its segments, pushed behind its root. -/
theorem Canonical.pushAll_root {b : List UInt8} (h : Canonical b) :
    pushAll (Path.mk b).root (Path.mk b) = b := by
  induction h with
  | root h => rcases h with rfl | rfl <;> decide
  | @segment b s h hs ih =>
    rw [pushAll, root_push h.ne_nil hs.slash, segments_push h.ne_nil hs.slash,
      if_neg (getLast?_push h.ne_nil hs), List.filter_cons_of_pos hs.named, List.foldl_append]
    show push ((Path.mk b).segments.foldl push _) s = _
    rw [← push_pushAll (root_ne_nil _), ih]
  | @mark b h ih =>
    have hsegments : (Path.mk (push b [])).segments = (Path.mk b).segments := by
      rw [segments_push h.ne_nil List.not_mem_nil]
      exact List.append_nil _
    rw [pushAll, root_push h.ne_nil List.not_mem_nil, hsegments,
      if_pos (getLast?_push_nil h.ne_nil), ← push_pushAll (root_ne_nil _), ih]

/-- A canonical path is its own absolute form. -/
theorem Canonical.absolute? (h : Canonical p.bytes) (directory : Option WorkingDirectory) :
    p.absolute? directory = some p := by
  rw [absolute?_of_isAbsolute directory (beq_iff_eq.mpr h.head?), h.pushAll_root]

theorem canonical_of_isAbsolute (hp : p.isAbsolute = true) (h : p.absolute? directory = some q) :
    Canonical q.bytes := by
  rw [absolute?_of_isAbsolute directory hp, Option.some.injEq] at h
  rw [← h]
  exact canonical_pushAll (.root (root_eq p)) p

end

end DocStore.Path

/-- The directory is spelled as its absolute form: without empty and `.` segments. -/
def DocStore.WorkingDirectory.IsNormal (d : DocStore.WorkingDirectory) : Prop :=
  d.path.absolute? none = some d.path

namespace DocStore.Path

section

variable {directory : Option WorkingDirectory}

theorem canonical_iff_isNormal (d : WorkingDirectory) :
    Canonical d.path.bytes ↔ d.IsNormal :=
  ⟨fun h => h.absolute? none, fun h => canonical_of_isAbsolute d.isAbsolute h⟩

theorem canonical_absolute {p q : Path} (hd : ∀ d ∈ directory, d.IsNormal)
    (h : p.absolute? directory = some q) : Canonical q.bytes := by
  obtain ⟨_, base, hbase, rfl⟩ := absolute?_ok h
  refine canonical_pushAll ?_ p
  rw [base?] at hbase
  split at hbase
  · rw [← Option.some.inj hbase]
    exact .root (root_eq p)
  · obtain ⟨d, hmem, rfl⟩ := Option.map_eq_some_iff.mp hbase
    exact (canonical_iff_isNormal d).mpr (hd d hmem)

/-- Absolute forms are their own absolute forms just if the working directory is spelled as its
absolute form. -/
theorem idempotent_iff_isNormal :
    (∀ p q : Path, p.absolute? directory = some q → q.absolute? directory = some q) ↔
      ∀ d ∈ directory, d.IsNormal := by
  constructor
  · rintro h d rfl
    have hdot : (Path.mk [dot]).absolute? (some d) = some d.path := rfl
    have hpath := h _ _ hdot
    rwa [absolute?_of_isAbsolute _ d.isAbsolute, ← absolute?_of_isAbsolute none d.isAbsolute]
      at hpath
  · intro hd p q h
    exact (canonical_absolute hd h).absolute? directory

end

/-! ## Texts -/

/-- The bytes are the UTF-8 form of a text. -/
def IsText (bytes : List UInt8) : Prop := ∃ s : String, bytes = Utf8.encode s

theorem isText_iff {bytes : List UInt8} :
    IsText bytes ↔ ∃ cs : List Char, bytes = cs.flatMap String.utf8EncodeChar := by
  constructor
  · rintro ⟨s, rfl⟩
    exact ⟨s.toList, rfl⟩
  · rintro ⟨cs, rfl⟩
    exact ⟨String.ofList cs, by rw [Utf8.encode, String.toList_ofList]⟩

theorem IsText.nil : IsText [] := isText_iff.mpr ⟨[], rfl⟩

theorem IsText.append {a b : List UInt8} (ha : IsText a) (hb : IsText b) : IsText (a ++ b) := by
  rw [isText_iff] at *
  obtain ⟨cs, rfl⟩ := ha
  obtain ⟨ds, rfl⟩ := hb
  exact ⟨cs ++ ds, List.flatMap_append.symm⟩

theorem IsText.slash : IsText [slash] := isText_iff.mpr ⟨['/'], by decide⟩

/-- Only the slash has the byte of a slash in its encoding. -/
theorem not_mem_encodeChar {c : Char} (hc : c ≠ '/') : Path.slash ∉ String.utf8EncodeChar c := by
  have hv : c.val.toNat ≠ 47 := fun h => hc (Char.ext (UInt32.toNat_inj.mp h))
  have hbound := Utf8.code_bounds c
  have hne (n : Nat) (h : n < 256) (h' : n ≠ 47) : Path.slash ≠ UInt8.ofNat n := fun he => h' (by
    have := congrArg UInt8.toNat he
    rw [Utf8.toNat_ofNat h] at this
    exact this.symm)
  unfold String.utf8EncodeChar
  generalize c.val.toNat = v at hv hbound
  dsimp only
  split
  · simp only [List.mem_singleton]
    exact hne v (by omega) hv
  · split
    · simp only [List.mem_cons, List.not_mem_nil, or_false, not_or]
      exact ⟨hne _ (by omega) (by omega), hne _ (by omega) (by omega)⟩
    · split
      · simp only [List.mem_cons, List.not_mem_nil, or_false, not_or]
        exact ⟨hne _ (by omega) (by omega), hne _ (by omega) (by omega),
          hne _ (by omega) (by omega)⟩
      · simp only [List.mem_cons, List.not_mem_nil, or_false, not_or]
        exact ⟨hne _ (by omega) (by omega), hne _ (by omega) (by omega),
          hne _ (by omega) (by omega), hne _ (by omega) (by omega)⟩

/-- A text is cut at slashes into texts. -/
theorem IsText.of_mem_pieces {bytes s : List UInt8} (h : IsText bytes) (hs : s ∈ pieces bytes) :
    IsText s := by
  obtain ⟨cs, rfl⟩ := isText_iff.mp h
  clear h
  induction cs generalizing s with
  | nil => rw [List.flatMap_nil, pieces, List.mem_singleton] at hs; exact hs ▸ .nil
  | cons c cs ih =>
    rw [List.flatMap_cons] at hs
    by_cases hc : c = '/'
    · subst hc
      rcases List.mem_cons.mp hs with rfl | hs
      · exact .nil
      · exact ih hs
    · cases hp : pieces (cs.flatMap String.utf8EncodeChar) with
      | nil => exact absurd hp (pieces_ne_nil _)
      | cons first others =>
        rw [pieces_append (not_mem_encodeChar hc) hp] at hs
        rcases List.mem_cons.mp hs with rfl | hs
        · exact .append (isText_iff.mpr ⟨[c], by simp⟩) (ih (hp ▸ List.mem_cons_self))
        · exact ih (hp ▸ List.mem_cons_of_mem _ hs)

theorem IsText.push {base s : List UInt8} (hbase : IsText base) (hs : IsText s) :
    IsText (push base s) := by
  unfold Path.push
  split
  · split
    · exact hbase.append hs
    · exact hbase.append (IsText.slash.append hs)
  · exact hs

theorem IsText.absolute {directory : Option WorkingDirectory} {p q : Path} (ht : IsText p.bytes)
    (hp : p.isAbsolute = true) (h : p.absolute? directory = some q) : IsText q.bytes := by
  have hroot : IsText p.root := by
    rcases root_eq p with hr | hr <;> rw [hr]
    · exact .slash
    · exact IsText.slash.append .slash
  rw [absolute?_of_isAbsolute directory hp, Option.some.injEq] at h
  rw [← h]
  exact pushAll_induction hroot
    (fun b s hs hb => hb.push (ht.of_mem_pieces (List.mem_filter.mp hs).1)) fun b hb => hb.push .nil

/-- A path that is text is read back from its text. -/
theorem ofText_toText {p : Path} (h : IsText p.bytes) : ofText p.toText = p := by
  obtain ⟨s, hs⟩ := h
  rw [toText, hs, Utf8.lossy_encode, ofText, ← hs]

/-! ## Bytes that are no text -/

/-- The bytes of the text of a byte sequence. -/
def reread (bytes : List UInt8) : List UInt8 := Utf8.encode (Utf8.lossy bytes)

theorem isAscii_slash : Utf8.IsAscii '/' := by unfold Utf8.IsAscii; decide

theorem reread_append_slash (a b : List UInt8) :
    reread (a ++ slash :: b) = reread a ++ slash :: reread b := by
  have hcut := Utf8.decode_append_cons isAscii_slash a b
  have hslash : UInt8.ofNat '/'.toNat = slash := rfl
  rw [hslash] at hcut
  simp only [reread, Utf8.encode, Utf8.lossy, hcut, String.toList_ofList, List.map_append,
    List.map_cons, List.flatMap_append, List.flatMap_cons, Option.getD_some]
  rfl

theorem slash_not_mem_reread {s : List UInt8} (h : slash ∉ s) : slash ∉ reread s := by
  intro hmem
  obtain ⟨c, hc, hbyte⟩ := List.mem_flatMap.mp hmem
  have hslash : c = '/' := Decidable.byContradiction fun hne => not_mem_encodeChar hne hbyte
  subst hslash
  rw [Utf8.lossy, String.toList_ofList] at hc
  obtain ⟨o, ho, heq⟩ := List.mem_map.mp hc
  cases o with
  | none => cases heq
  | some c =>
    rw [Option.getD_some] at heq
    subst heq
    exact h (Utf8.mem_of_mem_decode isAscii_slash ho)

theorem reread_ne_nil {b : List UInt8} (h : b ≠ []) : reread b ≠ [] := by
  intro hnil
  have hempty : Utf8.lossy b = "" := Utf8.encode_injective hnil
  rw [Utf8.lossy, ← String.toList_inj, String.toList_ofList] at hempty
  exact h (Utf8.decode_eq_nil (List.map_eq_nil_iff.mp hempty))

theorem reread_ne_dot {b : List UInt8} (h : b ≠ [dot]) : reread b ≠ [dot] := by
  intro hdot
  have hlossy : Utf8.lossy b = "." := Utf8.encode_injective hdot
  rw [Utf8.lossy, ← String.toList_inj, String.toList_ofList] at hlossy
  obtain ⟨o, hdecode, ho⟩ := List.map_eq_singleton_iff.mp hlossy
  cases o with
  | none => cases ho
  | some c =>
    rw [Option.getD_some] at ho
    subst ho
    exact h (Utf8.eq_singleton_of_decode (by unfold Utf8.IsAscii; decide) hdecode)

/-- Segments that are no text stay segments. -/
theorem IsSegment.reread {s : List UInt8} (h : IsSegment s) : IsSegment (reread s) := by
  obtain ⟨hne, hdot⟩ := named_iff.mp h.named
  exact ⟨named_iff.mpr ⟨reread_ne_nil hne, reread_ne_dot hdot⟩, slash_not_mem_reread h.slash⟩

theorem Canonical.getLast?_reread {b : List UInt8} (h : Canonical b)
    (hlast : b.getLast? ≠ some Path.slash) : (Path.reread b).getLast? ≠ some Path.slash := by
  cases h with
  | root h => rcases h with rfl | rfl <;> exact absurd rfl hlast
  | mark h => exact absurd (getLast?_push_nil h.ne_nil) hlast
  | @segment b s h hs =>
    obtain ⟨b', hpush, _⟩ := exists_push h.ne_nil s
    have hne := hs.reread.ne_nil
    rw [hpush, reread_append_slash, List.getLast?_append, List.getLast?_cons,
      List.getLast?_eq_some_getLast hne]
    intro hslash
    exact hs.reread.slash (Option.some.inj hslash ▸ List.getLast_mem hne)

theorem reread_push {b : List UInt8} (h : Canonical b) (s : List UInt8) :
    reread (push b s) = push (reread b) (reread s) := by
  obtain ⟨b', hpush, hbase | ⟨hbase, hlast⟩⟩ := exists_push h.ne_nil s
  · have hreread : reread b = reread b' ++ [slash] := by rw [hbase, reread_append_slash]; rfl
    rw [hpush, reread_append_slash, hreread, push_of_getLast? (by simp)]
    simp
  · rw [← hbase] at hpush
    rw [hpush, reread_append_slash,
      push_of_getLast?_ne (reread_ne_nil h.ne_nil) (h.getLast?_reread hlast)]

theorem Canonical.reread {b : List UInt8} (h : Canonical b) : Canonical (reread b) := by
  induction h with
  | root h => rcases h with rfl | rfl <;> exact .root (by decide)
  | segment h hs ih => exact reread_push h _ ▸ .segment ih hs.reread
  | mark h ih => exact reread_push h _ ▸ .mark ih

end DocStore.Path
