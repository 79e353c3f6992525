import DocStore.Proofs.Filter.Reading

/-!
# What filter strings mean

`truth?` evaluates a filter string, given which tests hold. `NOT` before a part binds tightest, and
of the keywords between parts one splits last, the `looser` one. `Reading.truth_joined` says that
the choice makes no difference where all keywords of a group are the same.
-/

namespace DocStore

/-- All hold, one holds, or only the first one does. -/
def Connective.holds : Connective → List Bool → Bool
  | .and, values => values.all id
  | .or, values => values.any id
  | .not, values => values.headD true && values.tail.all (!·)

/-- Two parts with a keyword between them. -/
def Connective.apply : Connective → Bool → Bool → Bool
  | .and, a, b => a && b
  | .or, a, b => a || b
  | .not, a, b => a && !b

namespace Filter

/-- Parts with keywords between them: all keywords but `looser` are applied from left to right. -/
def chain (looser : Connective) : List Connective → List Bool → Bool
  | k :: keywords, a :: b :: values =>
    if k = looser then k.apply a (chain looser keywords (b :: values))
    else chain looser keywords (k.apply a b :: values)
  | _, a :: _ => a
  | _, [] => true

section

variable (looser : Connective) (atom : Test → Bool)

mutual

def Reading.truth : Reading → Bool
  | .test t => atom t
  | .not r => !r.truth
  | .group keywords parts => chain looser keywords (Reading.truths parts)

def Reading.truths : List Reading → List Bool
  | [] => []
  | r :: rest => r.truth :: Reading.truths rest

end

def truth? (s : String) : Option Bool := (Reading.ofText? s).map (Reading.truth looser atom)

end

/-! ## Groups with one keyword -/

theorem holds_cons_cons (k : Connective) (a b : Bool) (values : List Bool) :
    k.holds (k.apply a b :: values) = k.holds (a :: b :: values) := by
  cases k <;> simp [Connective.holds, Connective.apply, Bool.and_assoc, Bool.or_assoc]

/-- The first part may be applied last, except that `NOT` belongs to the part before it. -/
theorem apply_holds {k : Connective} (hk : k ≠ .not) (a b : Bool) (values : List Bool) :
    k.apply a (k.holds (b :: values)) =
      k.holds (a :: b :: values) := by
  cases k with
  | and => simp [Connective.holds, Connective.apply]
  | or => simp [Connective.holds, Connective.apply]
  | not => exact absurd rfl hk

theorem holds_singleton (k : Connective) (a : Bool) : k.holds [a] = a := by
  cases k <;> simp [Connective.holds]

theorem chain_replicate {looser : Connective} (hl : looser ≠ .not) (k : Connective) (a : Bool)
    (values : List Bool) :
    chain looser (List.replicate values.length k) (a :: values) =
      k.holds (a :: values) := by
  induction values generalizing a with
  | nil => rw [holds_singleton]; rfl
  | cons b values ih =>
    rw [List.length_cons, List.replicate_succ, chain]
    split
    · rename_i hk
      rw [ih, apply_holds (hk ▸ hl)]
    · rw [ih, holds_cons_cons]

theorem truths_eq_map (looser : Connective) (atom : Test → Bool) (rs : List Reading) :
    Reading.truths looser atom rs = rs.map (Reading.truth looser atom) := by
  induction rs with
  | nil => rfl
  | cons r rs ih => simp only [Reading.truths, List.map_cons, ih]

/-- Whichever keyword is looser, a group with one keyword means what its connective says. -/
theorem Reading.truth_joined {looser : Connective} (hl : looser ≠ .not) (atom : Test → Bool)
    (k : Connective) {parts : List Reading} (hne : parts ≠ []) :
    Reading.truth looser atom (.joined k parts) =
      k.holds (parts.map (Reading.truth looser atom)) := by
  cases parts with
  | nil => exact absurd rfl hne
  | cons r rest =>
    have h := chain_replicate hl k (Reading.truth looser atom r)
      (rest.map (Reading.truth looser atom))
    simp only [List.length_map] at h
    simp only [Reading.joined, Reading.truth, truths_eq_map, List.map_cons, List.length_cons,
      Nat.add_sub_cancel, h]

end Filter

end DocStore
