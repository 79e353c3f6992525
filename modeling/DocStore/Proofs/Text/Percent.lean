import DocStore.Proofs.Text.Utf8
import DocStore.Text.Percent
import Mathlib.Logic.Function.Basic

/-!
# Percent-encoded texts

A percent-encoded text consists of segment characters (`isSegmentChar_percentEncoded`), and
different texts have different encodings (`percentEncoded_injective`), since no encoding of a byte
begins another one.
-/

namespace DocStore.Text

/-- The encoding of a byte sequence. -/
def percentBytes (bytes : List UInt8) : List Char := bytes.flatMap percentByte

theorem toList_percentEncoded (s : String) :
    (percentEncoded s).toList = percentBytes (Utf8.encode s) := String.toList_ofList

/-- The characters that percent-encoded texts are written with. -/
def isSegmentChar (c : Char) : Bool :=
  c.isAlphanum || c == '-' || c == '_' || c == '.' || c == '~' || c == '%'

theorem isSegmentChar_percentByte (b : UInt8) : ∀ c ∈ percentByte b, isSegmentChar c = true := by
  have hall : ∀ n < 256, (percentByte (UInt8.ofNat n)).all isSegmentChar = true := by
    decide +kernel
  have hb := hall b.toNat b.toNat_lt
  rwa [UInt8.ofNat_toNat, List.all_eq_true] at hb

theorem isSegmentChar_percentEncoded (s : String) :
    ∀ c ∈ (percentEncoded s).toList, isSegmentChar c = true := by
  intro c hc
  rw [toList_percentEncoded] at hc
  obtain ⟨b, _, hb⟩ := List.mem_flatMap.mp hc
  exact isSegmentChar_percentByte b c hb

/-! ## Different texts -/

theorem upperHexDigit_injective {m n : Nat} (hm : m < 16) (hn : n < 16)
    (h : upperHexDigit m = upperHexDigit n) : m = n := by
  have hall : ∀ m < 16, ∀ n < 16, upperHexDigit m = upperHexDigit n → m = n := by decide
  exact hall m hm n hn h

theorem isUnreservedByte_percent : isUnreservedByte 0x25 = false := by decide

theorem toNat_charOfByte (b : UInt8) : (Char.ofNat b.toNat).toNat = b.toNat := by
  have hb : b.toNat < 256 := b.toNat_lt
  have hvalid : b.toNat.isValidChar := .inl (by omega)
  rw [Char.ofNat, dif_pos hvalid]
  rfl

theorem byte_eq_of_char {a b : UInt8} (h : Char.ofNat a.toNat = Char.ofNat b.toNat) : a = b := by
  have := congrArg Char.toNat h
  rw [toNat_charOfByte, toNat_charOfByte] at this
  exact UInt8.toNat_inj.mp this

/-- A byte that stands for itself is not the sign that starts a triple. -/
theorem charOfByte_ne_percent {b : UInt8} (h : isUnreservedByte b.toNat = true) :
    Char.ofNat b.toNat ≠ '%' := by
  intro he
  have hb : b.toNat = 0x25 := by rw [← toNat_charOfByte, he]; rfl
  rw [hb, isUnreservedByte_percent] at h
  cases h

theorem percentByte_ne_nil (b : UInt8) : percentByte b ≠ [] := by
  unfold percentByte
  split <;> exact List.cons_ne_nil _ _

/-- What follows the encoding of a byte does not matter for reading it. -/
theorem percentByte_append_inj {a b : UInt8} {s t : List Char}
    (h : percentByte a ++ s = percentByte b ++ t) : a = b ∧ s = t := by
  unfold percentByte percentTriple at h
  split at h
  · rename_i ha
    split at h
    · rw [List.singleton_append, List.singleton_append, List.cons.injEq] at h
      exact ⟨byte_eq_of_char h.1, h.2⟩
    · rw [List.singleton_append, List.cons_append, List.cons.injEq] at h
      exact absurd h.1 (charOfByte_ne_percent ha)
  · split at h
    · rename_i hb
      rw [List.singleton_append, List.cons_append, List.cons.injEq] at h
      exact absurd h.1.symm (charOfByte_ne_percent hb)
    · simp only [List.cons_append, List.nil_append, List.cons.injEq, true_and] at h
      have ha := a.toNat_lt
      have hb := b.toNat_lt
      have hhigh : a.toNat / 16 = b.toNat / 16 :=
        upperHexDigit_injective (by omega) (by omega) h.1
      have hlow : a.toNat % 16 = b.toNat % 16 :=
        upperHexDigit_injective (by omega) (by omega) h.2.1
      exact ⟨UInt8.toNat_inj.mp (by omega), h.2.2⟩

theorem percentBytes_injective : Function.Injective percentBytes := by
  intro a b h
  induction a generalizing b with
  | nil =>
    cases b with
    | nil => rfl
    | cons y b =>
      rw [percentBytes, percentBytes, List.flatMap_cons] at h
      exact absurd (List.append_eq_nil_iff.mp h.symm).1 (percentByte_ne_nil y)
  | cons x a ih =>
    cases b with
    | nil =>
      rw [percentBytes, percentBytes, List.flatMap_cons] at h
      exact absurd (List.append_eq_nil_iff.mp h).1 (percentByte_ne_nil x)
    | cons y b =>
      obtain ⟨rfl, hrest⟩ := percentByte_append_inj h
      rw [ih hrest]

theorem percentEncoded_injective : Function.Injective percentEncoded := by
  intro s t h
  have hbytes : Utf8.encode s = Utf8.encode t := by
    apply percentBytes_injective
    rw [← toList_percentEncoded, h, toList_percentEncoded]
  rw [← Utf8.lossy_encode s, hbytes, Utf8.lossy_encode]

end DocStore.Text
