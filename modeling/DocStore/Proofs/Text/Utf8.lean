import DocStore.Text.Utf8

/-!
# Decoding what was encoded

`decode_encode`: the bytes of a text are cut into its characters again. Each character is decoded
whatever follows it (`decodeFrom_encodeChar`), by the four lengths of an encoding. In any bytes, the
characters of ASCII stand where their bytes stand: a byte sequence is cut before and behind them
(`decode_append_cons`), and no other bytes are decoded as one (`mem_of_mem_decode`).
-/

namespace DocStore.Utf8

theorem toNat_ofNat {n : Nat} (h : n < 256) : (UInt8.ofNat n).toNat = n := by
  simpa using Nat.mod_eq_of_lt h

section

variable {missing least greatest code n : Nat}

/-- The last byte of a character completes it. -/
theorem decodeFrom_last (hn : n < 256) (h : least ≤ n ∧ n ≤ greatest) (rest : List UInt8) :
    decodeFrom (some ⟨1, least, greatest, code⟩) (UInt8.ofNat n :: rest) =
      some (Char.ofNat (code * 0x40 + (n - 0x80))) :: decodeFrom none rest := by
  rw [decodeFrom, toNat_ofNat hn, if_pos h]
  rfl

/-- A byte before the last adds its bits. -/
theorem decodeFrom_next (hn : n < 256) (h : least ≤ n ∧ n ≤ greatest) (rest : List UInt8) :
    decodeFrom (some ⟨missing + 2, least, greatest, code⟩) (UInt8.ofNat n :: rest) =
      decodeFrom (some ⟨missing + 1, 0x80, 0xBF, code * 0x40 + (n - 0x80)⟩) rest := by
  rw [decodeFrom, toNat_ofNat hn, if_pos h]
  exact if_neg (by simp)

end

theorem decodeFrom_lead {p : Pending} {n : Nat} (hn : n < 256) (h : lead n = .more p)
    (rest : List UInt8) :
    decodeFrom none (UInt8.ofNat n :: rest) = decodeFrom (some p) rest := by
  rw [decodeFrom, toNat_ofNat hn, h]

theorem ofNat_toNat (c : Char) : Char.ofNat c.val.toNat = c := Char.ofNat_toNat c

theorem code_bounds (c : Char) :
    c.val.toNat < 0xD800 ∨ (0xDFFF < c.val.toNat ∧ c.val.toNat < 0x110000) := c.valid

theorem decodeFrom_encodeChar (c : Char) (rest : List UInt8) :
    decodeFrom none (String.utf8EncodeChar c ++ rest) = some c :: decodeFrom none rest := by
  have hc := ofNat_toNat c
  have hv := code_bounds c
  revert hc hv
  unfold String.utf8EncodeChar
  generalize c.val.toNat = v
  intro hc hv
  dsimp only
  split
  · rename_i h1
    have hlead : lead v = .whole c := by rw [lead, if_pos (by omega), hc]
    rw [List.singleton_append, decodeFrom, toNat_ofNat (by omega), hlead]
  · split
    · rename_i h1 h2
      have hcode : v / 64 % 0x20 + 0xc0 - 0xC0 = v / 64 := by omega
      have hlead : lead (v / 64 % 0x20 + 0xc0) = .more ⟨1, 0x80, 0xBF, v / 64⟩ := by
        rw [lead, if_neg (by omega), if_neg (by omega), if_pos (by omega), hcode]
      have hlast : v / 64 * 0x40 + (v % 0x40 + 0x80 - 0x80) = v := by omega
      rw [List.cons_append, decodeFrom_lead (by omega) hlead, List.singleton_append,
        decodeFrom_last (by omega) (by omega), hlast, hc]
    · split
      · rename_i h1 h2 h3
        have hcode : v / 4096 % 0x10 + 0xe0 - 0xE0 = v / 4096 := by omega
        have hlead : lead (v / 4096 % 0x10 + 0xe0) =
            .more ⟨2, if v / 4096 % 0x10 + 0xe0 = 0xE0 then 0xA0 else 0x80,
              if v / 4096 % 0x10 + 0xe0 = 0xED then 0x9F else 0xBF, v / 4096⟩ := by
          rw [lead, if_neg (by omega), if_neg (by omega), if_neg (by omega), if_pos (by omega),
            hcode]
        have hmid : v / 4096 * 0x40 + (v / 64 % 0x40 + 0x80 - 0x80) = v / 64 := by omega
        have hlast : v / 64 * 0x40 + (v % 0x40 + 0x80 - 0x80) = v := by omega
        rw [List.cons_append, decodeFrom_lead (by omega) hlead, List.cons_append,
          decodeFrom_next (by omega) (by constructor <;> split <;> omega), hmid,
          List.singleton_append, decodeFrom_last (by omega) (by omega), hlast, hc]
      · rename_i h1 h2 h3
        have hcode : v / 262144 % 0x08 + 0xf0 - 0xF0 = v / 262144 := by omega
        have hlead : lead (v / 262144 % 0x08 + 0xf0) =
            .more ⟨3, if v / 262144 % 0x08 + 0xf0 = 0xF0 then 0x90 else 0x80,
              if v / 262144 % 0x08 + 0xf0 = 0xF4 then 0x8F else 0xBF, v / 262144⟩ := by
          rw [lead, if_neg (by omega), if_neg (by omega), if_neg (by omega), if_neg (by omega),
            if_pos (by omega), hcode]
        have hmid : v / 262144 * 0x40 + (v / 4096 % 0x40 + 0x80 - 0x80) = v / 4096 := by omega
        have hmid' : v / 4096 * 0x40 + (v / 64 % 0x40 + 0x80 - 0x80) = v / 64 := by omega
        have hlast : v / 64 * 0x40 + (v % 0x40 + 0x80 - 0x80) = v := by omega
        rw [List.cons_append, decodeFrom_lead (by omega) hlead, List.cons_append,
          decodeFrom_next (by omega) (by constructor <;> split <;> omega), hmid, List.cons_append,
          decodeFrom_next (by omega) (by omega), hmid', List.singleton_append,
          decodeFrom_last (by omega) (by omega), hlast, hc]

theorem decode_encode (s : String) : decode (encode s) = s.toList.map some := by
  unfold decode encode
  induction s.toList with
  | nil => rfl
  | cons c cs ih => rw [List.flatMap_cons, decodeFrom_encodeChar, ih, List.map_cons]

theorem lossy_encode (s : String) : lossy (encode s) = s := by
  rw [lossy, decode_encode, List.map_map]
  exact (congrArg String.ofList (List.map_id _)).trans String.ofList_toList

theorem strict?_encode (s : String) : strict? (encode s) = some s := by
  have hall : ∀ cs : List Char, (cs.map some).mapM id = some cs := by
    intro cs
    induction cs with
    | nil => rfl
    | cons c cs ih =>
      rw [List.map_cons, List.mapM_cons, ih]
      rfl
  rw [strict?, decode_encode, hall, Option.map_some, String.ofList_toList]

theorem encode_injective : Function.Injective encode := by
  intro s t h
  have ht := strict?_encode t
  rw [← h, strict?_encode] at ht
  exact Option.some.inj ht

/-! ## Characters of ASCII in any bytes -/

theorem toNat_charOfNat {n : Nat} (h : n.isValidChar) : (Char.ofNat n).toNat = n := by
  rw [Char.ofNat, dif_pos h]
  rfl

/-- A character of ASCII; `U+0000`, which stands for what is no character, is left out. -/
def IsAscii (c : Char) : Prop := 0 < c.toNat ∧ c.toNat < 0x80

/-- The bytes to come are not those of ASCII, and make a greater character. -/
structure Pending.Wide (p : Pending) : Prop where
  least : 0x80 ≤ p.least
  last : p.missing = 1 → 2 ≤ p.code
  next : p.missing ≠ 1 → 2 ≤ p.code * 0x40 + (p.least - 0x80)

theorem wide_of_lead {b : Nat} {p : Pending} (h : lead b = .more p) : p.Wide := by
  unfold lead at h
  repeat' split at h
  all_goals cases h
  all_goals constructor <;> simp only <;> omega

theorem lead_ofNat {c : Char} (hc : IsAscii c) : lead (UInt8.ofNat c.toNat).toNat = .whole c := by
  have hlt := hc.2
  rw [toNat_ofNat (by omega), lead, if_pos hlt, Char.ofNat_toNat]

theorem not_isAscii_ofNat {code : Nat} (h : 0x80 ≤ code) : ¬ IsAscii (Char.ofNat code) := by
  rintro ⟨hpos, hlt⟩
  by_cases hvalid : code.isValidChar
  · rw [toNat_charOfNat hvalid] at hlt
    omega
  · rw [Char.ofNat, dif_neg hvalid] at hpos
    exact absurd hpos (by decide)

/-- Only its own byte starts a character of ASCII. -/
theorem eq_of_lead {b : UInt8} {c : Char} (h : lead b.toNat = .whole c) :
    b = UInt8.ofNat c.toNat := by
  unfold lead at h
  split at h
  · rename_i hb
    cases h
    rw [toNat_charOfNat (.inl (by omega)), UInt8.ofNat_toNat]
  · repeat' split at h
    all_goals cases h

/-- What a byte adds to the characters, and what is pending behind it. -/
structure Step (pending : Option Pending) (b : UInt8) (out : List (Option Char))
    (next : Option Pending) : Prop where
  eq : ∀ rest, decodeFrom pending (b :: rest) = out ++ decodeFrom next rest
  wide : ∀ p ∈ next, p.Wide
  isSome : out = [] → next.isSome = true
  ascii : ∀ c, IsAscii c → some c ∈ out → b = UInt8.ofNat c.toNat

/-- A byte that is read as a first one. -/
theorem exists_step_none (b : UInt8) : ∃ out next, Step none b out next := by
  cases hlead : lead b.toNat with
  | whole d =>
    refine ⟨[some d], none, fun rest => by rw [decodeFrom, hlead]; rfl, nofun, nofun, ?_⟩
    intro c _ hmem
    cases List.mem_singleton.mp hmem
    exact eq_of_lead hlead
  | more p =>
    refine ⟨[], some p, fun rest => by rw [decodeFrom, hlead]; rfl, ?_, fun _ => rfl, nofun⟩
    rintro _ ⟨⟩
    exact wide_of_lead hlead
  | invalid =>
    refine ⟨[none], none, fun rest => by rw [decodeFrom, hlead]; rfl, nofun, nofun, ?_⟩
    intro c _ hmem
    cases List.mem_singleton.mp hmem

theorem decodeFrom_break {p : Pending} {b : UInt8}
    (h : ¬ (p.least ≤ b.toNat ∧ b.toNat ≤ p.greatest)) (rest : List UInt8) :
    decodeFrom (some p) (b :: rest) = none :: decodeFrom none (b :: rest) := by
  conv => lhs; rw [decodeFrom, if_neg h]
  rw [decodeFrom]
  cases lead b.toNat <;> rfl

theorem exists_step {pending : Option Pending} (h : ∀ p ∈ pending, p.Wide) (b : UInt8) :
    ∃ out next, Step pending b out next := by
  cases pending with
  | none => exact exists_step_none b
  | some p =>
    obtain ⟨hleast, hlast, hnext⟩ := h p rfl
    by_cases hb : p.least ≤ b.toNat ∧ b.toNat ≤ p.greatest
    · by_cases hone : p.missing = 1
      · have hcode := hlast hone
        refine ⟨[some (Char.ofNat (p.code * 0x40 + (b.toNat - 0x80)))], none, fun rest => ?_, nofun,
          nofun, ?_⟩
        · rw [decodeFrom, if_pos hb]
          exact if_pos hone
        · intro c hc hmem
          rw [Option.some.inj (List.mem_singleton.mp hmem)] at hc
          exact absurd hc (not_isAscii_ofNat (by omega))
      · have hcode := hnext hone
        refine ⟨[], some ⟨p.missing - 1, 0x80, 0xBF, p.code * 0x40 + (b.toNat - 0x80)⟩,
          fun rest => ?_, ?_, fun _ => rfl, nofun⟩
        · rw [decodeFrom, if_pos hb]
          exact if_neg hone
        · rintro _ ⟨⟩
          constructor <;> simp only <;> omega
    · obtain ⟨out, next, hstep⟩ := exists_step_none b
      refine ⟨none :: out, next, fun rest => ?_, hstep.wide, nofun, fun c hc hmem => ?_⟩
      · rw [decodeFrom_break hb, hstep.eq, List.cons_append]
      · exact hstep.ascii c hc ((List.mem_cons.mp hmem).resolve_left nofun)

theorem decodeFrom_ne_nil {pending : Option Pending} (hwide : ∀ p ∈ pending, p.Wide)
    {bytes : List UInt8} (h : pending.isSome = true ∨ bytes ≠ []) :
    decodeFrom pending bytes ≠ [] := by
  induction bytes generalizing pending with
  | nil =>
    cases pending with
    | none => exact absurd rfl (h.resolve_left Bool.false_ne_true)
    | some p => exact List.cons_ne_nil _ _
  | cons b rest ih =>
    obtain ⟨out, next, hstep⟩ := exists_step hwide b
    rw [hstep.eq, ne_eq, List.append_eq_nil_iff]
    rintro ⟨hout, hrest⟩
    exact ih hstep.wide (.inl (hstep.isSome hout)) hrest

theorem decode_eq_nil {bytes : List UInt8} (h : decode bytes = []) : bytes = [] := by
  refine Decidable.byContradiction fun hne => ?_
  exact @decodeFrom_ne_nil none nofun bytes (.inr hne) h

section

variable {c : Char} (hc : IsAscii c)
include hc

/-- A character of ASCII is decoded from its byte only. -/
theorem mem_of_mem_decode {bytes : List UInt8} (h : some c ∈ decode bytes) :
    UInt8.ofNat c.toNat ∈ bytes := by
  suffices hfrom : ∀ pending : Option Pending, (∀ p ∈ pending, p.Wide) →
      some c ∈ decodeFrom pending bytes → UInt8.ofNat c.toNat ∈ bytes from hfrom none nofun h
  clear h
  induction bytes with
  | nil =>
    intro pending _ h
    cases pending with
    | none => cases h
    | some p => cases List.mem_singleton.mp h
  | cons b rest ih =>
    intro pending hwide h
    obtain ⟨out, next, hstep⟩ := exists_step hwide b
    rw [hstep.eq, List.mem_append] at h
    rcases h with h | h
    · exact hstep.ascii c hc h ▸ List.mem_cons_self
    · exact List.mem_cons_of_mem b (ih next hstep.wide h)

/-- Bytes are cut before and behind the byte of a character of ASCII. -/
theorem decode_append_cons (a b : List UInt8) :
    decode (a ++ UInt8.ofNat c.toNat :: b) = decode a ++ some c :: decode b := by
  have hfirst : decodeFrom none (UInt8.ofNat c.toNat :: b) = some c :: decodeFrom none b := by
    rw [decodeFrom, lead_ofNat hc]
  suffices hfrom : ∀ pending : Option Pending, (∀ p ∈ pending, p.Wide) →
      decodeFrom pending (a ++ UInt8.ofNat c.toNat :: b) =
        decodeFrom pending a ++ some c :: decodeFrom none b from hfrom none nofun
  induction a with
  | nil =>
    intro pending hwide
    cases pending with
    | none => exact hfirst
    | some p =>
      have hleast := (hwide p rfl).least
      have hlt := hc.2
      have hbreak : ¬ (p.least ≤ (UInt8.ofNat c.toNat).toNat ∧
          (UInt8.ofNat c.toNat).toNat ≤ p.greatest) := by
        rw [toNat_ofNat (by omega)]
        omega
      rw [List.nil_append, decodeFrom_break hbreak, hfirst]
      rfl
  | cons x a ih =>
    intro pending hwide
    obtain ⟨out, next, hstep⟩ := exists_step hwide x
    rw [List.cons_append, hstep.eq, hstep.eq, ih next hstep.wide, List.append_assoc]

/-- Bytes that are decoded as a character of ASCII alone are its byte. -/
theorem eq_singleton_of_decode {bytes : List UInt8} (h : decode bytes = [some c]) :
    bytes = [UInt8.ofNat c.toNat] := by
  have hmem : UInt8.ofNat c.toNat ∈ bytes := mem_of_mem_decode hc (by rw [h]; simp)
  obtain ⟨a, b, rfl⟩ := List.append_of_mem hmem
  rw [decode_append_cons hc, List.append_eq_singleton_iff] at h
  rcases h with ⟨ha, hb⟩ | ⟨_, hb⟩
  · rw [List.cons.injEq] at hb
    rw [decode_eq_nil ha, decode_eq_nil hb.2]
    rfl
  · cases hb

end

end DocStore.Utf8
