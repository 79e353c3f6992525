import DocStore.Proofs.Filter.Statements
import DocStore.Proofs.Session.Searches
import DocStore.Retriever

/-!
# Runs of retrievers

A run sends one search for each query, all with the same limit and filter (`RunAsks`). Where the run
gives no filter, or one that imposes nothing, `runAsks_of_empty` says which these are: a filter that
is plainly empty leaves that of the retriever in force. One that imposes nothing but is not plainly
empty does not: it displaces the filter of the retriever, and the searches have none
(`not_all_empty_fall_back`).
-/

namespace DocStore

open Http

namespace Retriever

/-- The run starts with one request for each query, and whatever the server does, each request of it
carries the query at its place, the limit and the filter. -/
def RunAsks (r : Retriever) (queries : List Query) (filters : Option Json) (topK : Option Nat)
    (limit : Nat) (filter : Option String) : Prop :=
  ∃ calls, (r.run queries filters topK).result = .ok calls ∧
    (∀ target, searchTarget? r.store = some target →
      ∀ (i : Nat) query, queries[i]? = some query → ∃ request next,
        calls[i]? = some (.send request next) ∧
        Asks r.store.client target limit filter query request) ∧
    ∀ (σ : Type) (server : Server σ) (s s' : σ) (log : List (Nat × Move))
      (stages : List (Stage (List Document))), Steps server (calls.map .idle) s log stages s' →
      ∀ i request, (i, .sent request) ∈ log → ∃ target query,
        searchTarget? r.store = some target ∧ queries[i]? = some query ∧
          Asks r.store.client target limit filter query request

section

variable {store : Store} {queries : List Query} {topK : Nat} {filter : Option String} {σ : Type}
  {server : Server σ} {s s' : σ} {log : List (Nat × Move)} {stages : List (Stage (List Document))}

theorem asks_of_sent
    (hsteps : Steps server ((searchCalls store queries topK filter).map .idle) s log stages s')
    {i : Nat} {request : Request} (hsent : (i, .sent request) ∈ log) :
    ∃ target query, searchTarget? store = some target ∧ queries[i]? = some query ∧
      Asks store.client target topK filter query request := by
  have hlt : i < queries.length := by
    have h := hsteps.place_lt _ hsent
    rwa [length_searchCalls] at h
  cases htarget : searchTarget? store with
  | none =>
    rw [(steps_of_no_target htarget hsteps).1] at hsent
    cases hsent
  | some target =>
    have hi : queries[i]? = some queries[i] := List.getElem?_eq_getElem hlt
    obtain ⟨stage, _, hexchanged⟩ := exchanged_at htarget hsteps hi
    obtain ⟨reply, hmoves⟩ := hexchanged.in_order
    have hmem := hmoves.subset (mem_movesAt.mpr hsent)
    obtain rfl : request = searchRequest store.client target topK filter queries[i] := by
      simpa using hmem
    exact ⟨target, _, rfl, hi, asks_searchRequest _ _ _ _ _⟩

end

theorem runAsks_of_chosen (r : Retriever) (queries : List Query) (topK : Option Nat)
    {filters : Option Json} {filter : Option String}
    (h : (r.store.compileFilter (r.chosenFilters filters)).result = .ok filter) :
    RunAsks r queries filters topK (r.chosenTopK topK) filter := by
  refine ⟨_, search_of_ok h queries _, fun target htarget i query hi => ?_,
    fun _ _ _ _ _ _ hsteps _ _ => asks_of_sent hsteps⟩
  have hcall : (searchCalls r.store queries (r.chosenTopK topK) filter)[i]? =
      some (r.store.runSearch query (r.chosenTopK topK) filter true) := by
    rw [searchCalls, List.getElem?_map, hi]
    rfl
  rw [runSearch_of_target htarget] at hcall
  exact ⟨_, _, hcall, asks_searchRequest _ _ _ _ query⟩

theorem RunAsks.filter_eq {r : Retriever} {queries : List Query} {filters : Option Json}
    {topK : Option Nat} {limit limit' : Nat} {filter filter' : Option String}
    (h : RunAsks r queries filters topK limit filter)
    (h' : RunAsks r queries filters topK limit' filter') {target : String}
    (htarget : searchTarget? r.store = some target) (hne : queries ≠ []) : filter = filter' := by
  obtain ⟨query, rest, rfl⟩ := List.exists_cons_of_ne_nil hne
  obtain ⟨calls, hcalls, hfirst, _⟩ := h
  obtain ⟨calls', hcalls', hfirst', _⟩ := h'
  obtain rfl : calls = calls' := by
    rw [hcalls] at hcalls'
    exact Except.ok.inj hcalls'
  obtain ⟨request, next, hget, hasks⟩ := hfirst target htarget 0 query rfl
  obtain ⟨request', next', hget', hasks'⟩ := hfirst' target htarget 0 query rfl
  obtain ⟨rfl, _⟩ := Call.send.inj (Option.some.inj (hget.symm.trans hget'))
  obtain ⟨fields, hbody, _, _, hfilter⟩ := hasks.body
  obtain ⟨fields', hbody', _, _, hfilter'⟩ := hasks'.body
  obtain rfl := Json.object.inj (Option.some.inj (hbody.symm.trans hbody'))
  exact Option.map_injective (fun _ _ => Json.string.inj) (hfilter.symm.trans hfilter')

/-- A run without a filter, or with one that imposes nothing, uses the limit that is asked for if it
is positive and that of the retriever else. The searches carry the filter of the retriever exactly
if that of the run is absent or plainly empty; otherwise they carry none. -/
theorem runAsks_of_empty (r : Retriever) (queries : List Query) (topK : Option Nat)
    {filter : Option String} (hown : (r.store.compileFilter r.filters).result = .ok filter)
    {filters : Option Json} (hrun : (r.store.compileFilter filters).result = .ok none) :
    RunAsks r queries filters topK
      (match topK with
        | some (k + 1) => k + 1
        | _ => r.topK)
      (if filters.all isBlank then filter else none) := by
  have hlimit : r.chosenTopK topK =
      match topK with
      | some (k + 1) => k + 1
      | _ => r.topK := by
    match topK with
    | none | some 0 | some (k + 1) => rfl
  rw [← hlimit]
  refine runAsks_of_chosen r queries topK ?_
  cases filters with
  | none => exact hown
  | some v =>
    rw [Option.all_some]
    cases hv : isBlank v with
    | true =>
      rw [chosenFilters, Option.filter_some, hv]
      exact hown
    | false =>
      rw [chosenFilters, Option.filter_some, hv]
      exact hrun

namespace Mandatory

/-- A retriever whose searches are confined to one genre. -/
def retriever : Retriever :=
  { store := ⟨⟨"http://localhost:8882", none⟩, { collectionName := "notes" }⟩,
    filters := some (.object [("genre", .string "news")]) }

theorem compiled_own : (retriever.store.compileFilter retriever.filters).result =
    .ok (some "__metadata_genre:(news)") :=
  eq_ok_of_toOption (by decide +kernel)

/-- A mapping that imposes nothing but has an entry. -/
def hollow : Json := .object [("$and", .array [])]

theorem compiled_hollow : (retriever.store.compileFilter (some hollow)).result = .ok none :=
  eq_ok_of_toOption (by decide +kernel)

/-- The filter of the retriever is in force for the empty mapping, and not for the other one. -/
theorem runAsks_of_empty_news :
    (retriever.store.compileFilter retriever.filters).result =
        .ok (some "__metadata_genre:(news)") ∧
      (retriever.store.compileFilter (some (.object []))).result = .ok none ∧
      (retriever.store.compileFilter (some hollow)).result = .ok none ∧
      searchTarget? retriever.store = some "/indexes/notes/search" ∧
      RunAsks retriever [.text "red", .text "blue"] (some (.object [])) (some 0) 10
        (some "__metadata_genre:(news)") ∧
      RunAsks retriever [.text "red"] (some hollow) (some 3) 3 none := by
  have hempty : (retriever.store.compileFilter (some (.object []))).result = .ok none :=
    eq_ok_of_toOption (by decide +kernel)
  exact ⟨compiled_own, hempty, compiled_hollow, by decide +kernel,
    runAsks_of_empty retriever _ (some 0) compiled_own hempty,
    runAsks_of_empty retriever _ (some 3) compiled_own compiled_hollow⟩

/-- It is not so that each filter that imposes nothing leaves that of the retriever in force. -/
theorem not_all_empty_fall_back :
    ¬ ∀ (r : Retriever) (queries : List Query) (topK : Option Nat) (filter : Option String)
      (filters : Option Json), (r.store.compileFilter r.filters).result = .ok filter →
      (r.store.compileFilter filters).result = .ok none →
      RunAsks r queries filters topK
        (match topK with
          | some (k + 1) => k + 1
          | _ => r.topK) filter := by
  intro hall
  have hclaimed := hall retriever [.text "red"] none _ (some hollow) compiled_own compiled_hollow
  have hactual : RunAsks retriever [.text "red"] (some hollow) none 10 none :=
    runAsks_of_chosen retriever _ none compiled_hollow
  have htarget : searchTarget? retriever.store = some "/indexes/notes/search" := by decide +kernel
  cases hclaimed.filter_eq hactual htarget (List.cons_ne_nil _ _)

end Mandatory

end Retriever

end DocStore
