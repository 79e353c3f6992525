import DocStore.Proofs.Decimal.Literal
import DocStore.Proofs.Json.ReadBack

/-!
# Indented texts

The indented text of a value has the tokens of its compact text (`sameTokens_write`): the blanks
stand between tokens, where they say nothing. So it is read as the same raw form
(`parse?_writePretty`).
-/

namespace DocStore

namespace Token

/-- Both texts have the same tokens. -/
def SameTokens (a b : List Char) : Prop := ∃ ts, scan a = some ts ∧ scan b = some ts

theorem SameTokens.nil : SameTokens [] [] := ⟨[], scan_nil, scan_nil⟩

theorem SameTokens.append {a b a' b' : List Char} (h : SameTokens a b) (h' : SameTokens a' b')
    (hd : Delimited a') (hd' : Delimited b') : SameTokens (a ++ a') (b ++ b') := by
  obtain ⟨ts, ha, hb⟩ := h
  obtain ⟨ts', ha', hb'⟩ := h'
  refine ⟨ts ++ ts', ?_, ?_⟩
  · rw [scan_append hd a ha, ha']
    rfl
  · rw [scan_append hd' b hb, hb']
    rfl

/-- The same token before texts with the same tokens. -/
theorem SameTokens.token {c : Char} (hc : ¬ isBlank c = true) {s s' a b : List Char} {t : Token}
    (ha : next? (c :: s) = some (t, a)) (hb : next? (c :: s') = some (t, b))
    (h : SameTokens a b) : SameTokens (c :: s) (c :: s') := by
  obtain ⟨ts, hs, hs'⟩ := h
  refine ⟨t :: ts, ?_, ?_⟩
  · rw [scan_token hc ha, hs]
    rfl
  · rw [scan_token hc hb, hs']
    rfl

theorem SameTokens.string {a b : List Char} (h : SameTokens a b) (s : String) :
    SameTokens (Json.writeString s ++ a) (Json.writeString s ++ b) := by
  have ha := next?_writeString s a
  have hb := next?_writeString s b
  rw [RawJson.writeString_append] at ha hb ⊢
  rw [RawJson.writeString_append]
  exact .token (by decide) ha hb h

theorem SameTokens.blank {c : Char} (hc : isBlank c = true) {a b : List Char}
    (h : SameTokens a b) : SameTokens a (c :: b) := by
  obtain ⟨ts, ha, hb⟩ := h
  exact ⟨ts, ha, by rw [scan_blank hc, hb]⟩

theorem SameTokens.newline {a b : List Char} (h : SameTokens a b) (level : Nat) :
    SameTokens a (Json.newline level ++ b) := by
  have hspaces : ∀ n, SameTokens a (List.replicate n ' ' ++ b) := by
    intro n
    induction n with
    | zero => exact h
    | succ n ih => exact ih.blank (by decide)
  exact (hspaces _).blank (by decide)

theorem delimited_newline (level : Nat) (rest : List Char) :
    Delimited (Json.newline level ++ rest) := by
  rintro c hc
  cases hc
  decide

theorem SameTokens.close {a b : List Char} (h : SameTokens a b) (level : Nat) {d : Char}
    (hd : d = ']' ∨ d = '\x7d') : SameTokens (a ++ [d]) (b ++ (Json.newline level ++ [d])) := by
  have hclose : SameTokens [d] [d] := by
    rcases hd with rfl | rfl
    · exact .token (by decide) rfl rfl .nil
    · exact .token (by decide) rfl rfl .nil
  exact h.append (hclose.newline level) (RawJson.delimited_cons (.inr hd) [])
    (delimited_newline level [d])

theorem SameTokens.comma {a b a' b' : List Char} (h : SameTokens a b) (h' : SameTokens a' b') :
    SameTokens (a ++ ',' :: a') (b ++ ',' :: b') :=
  h.append (.token (by decide) rfl rfl h') (RawJson.delimited_cons (.inl rfl) _)
    (RawJson.delimited_cons (.inl rfl) _)

/-- A colon before a value, with a blank between them or not. -/
theorem SameTokens.colon {a b : List Char} (h : SameTokens a b) :
    SameTokens (':' :: a) (':' :: ' ' :: b) :=
  .token (by decide) rfl rfl (h.blank (by decide))

end Token

namespace Json

open Token (SameTokens)

mutual

/-- The indented text has the tokens of the compact one. -/
theorem sameTokens_write (level : Nat) (v : Json) (h : ∀ n ∈ v.numbers, n.inRange = true) :
    SameTokens v.write (v.writePretty level) := by
  match v with
  | null => exact .token (by decide) rfl rfl .nil
  | bool true => exact .token (by decide) rfl rfl .nil
  | bool false => exact .token (by decide) rfl rfl .nil
  | number n =>
    obtain ⟨value, hvalue⟩ := Token.scan_number (h n (by simp [numbers]))
    exact ⟨[.number value], hvalue, hvalue⟩
  | string s =>
    have hstring := SameTokens.nil.string s
    rw [List.append_nil] at hstring
    exact hstring
  | array [] => exact .token (by decide) rfl rfl (.token (by decide) rfl rfl .nil)
  | array (v :: rest) =>
    have hitems := sameTokens_writeItems (level + 1) (v :: rest) (by simp) h
    simp only [write, writePretty, List.cons_append, List.append_assoc]
    exact .token (by decide) rfl rfl (hitems.close level (.inl rfl))
  | object [] => exact .token (by decide) rfl rfl (.token (by decide) rfl rfl .nil)
  | object (e :: rest) =>
    have hfields := sameTokens_writeFields (level + 1) (e :: rest) (by simp) h
    simp only [write, writePretty, List.cons_append, List.append_assoc]
    exact .token (by decide) rfl rfl (hfields.close level (.inr rfl))

theorem sameTokens_writeItems (level : Nat) (items : List Json) (hne : items ≠ [])
    (h : ∀ n ∈ itemsNumbers items, n.inRange = true) :
    SameTokens (writeItems items) (writePrettyItems level items) := by
  match items with
  | [v] =>
    rw [itemsNumbers, List.forall_mem_append] at h
    rw [writeItems, writePrettyItems]
    exact (sameTokens_write level v h.1).newline level
  | v :: w :: rest =>
    rw [itemsNumbers, List.forall_mem_append] at h
    have hv := sameTokens_write level v h.1
    have hrest := sameTokens_writeItems level (w :: rest) (by simp) h.2
    rw [writeItems, writePrettyItems, List.append_assoc]
    · exact (hv.comma hrest).newline level
    · simp
    · simp

theorem sameTokens_writeFields (level : Nat) (fields : Fields) (hne : fields ≠ [])
    (h : ∀ n ∈ fieldsNumbers fields, n.inRange = true) :
    SameTokens (writeFields fields) (writePrettyFields level fields) := by
  match fields with
  | [(k, v)] =>
    rw [fieldsNumbers, List.forall_mem_append] at h
    have hv := sameTokens_write level v h.1
    rw [writeFields, writePrettyFields, List.append_assoc]
    exact (hv.colon.string k).newline level
  | (k, v) :: f :: rest =>
    rw [fieldsNumbers, List.forall_mem_append] at h
    have hv := sameTokens_write level v h.1
    have hrest := sameTokens_writeFields level (f :: rest) (by simp) h.2
    have hvalues := (hv.comma hrest).colon
    rw [writeFields, writePrettyFields]
    · simp only [List.cons_append, List.append_assoc]
      exact (hvalues.string k).newline level
    · simp
    · simp

end

/-- Indentation makes no difference to what a text is read as. -/
theorem parse?_writePretty (level : Nat) {v : Json} (h : ∀ n ∈ v.numbers, n.inRange = true) :
    RawJson.parse? (v.writePretty level) = RawJson.parse? v.write := by
  obtain ⟨ts, hwrite, hpretty⟩ := sameTokens_write level v h
  rw [RawJson.parse?, RawJson.parse?, hwrite, hpretty]

end Json

end DocStore
