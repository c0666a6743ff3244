/-
  CommitteeSync.Proofs.StoreReads — what a store reads as after a series of updates.

  What a store holds comes from metadata put into it and from transactions committed to it.
  Of these updates, one after another (`Store.replay`), only the last write of each key can be
  read: of metadata under its key, of committees as the one listed with this slot and index.
  The list of committees is strictly increasing in slot and index, so it has each of them
  once (`Store.ReadsAs`, `Store.readsAs_of_contents`).
-/

import CommitteeSync.Proofs.Committed
import CommitteeSync.Proofs.Placing

namespace CommitteeSync

open CommitteeKey

/-! ## Metadata bound one after another -/

/-- Of several values bound to one key the last one counts. -/
theorem lookup_bindKeys (kvs m : List (String × Bytes)) (key : String) :
    (kvs.foldl (fun m kv => bindKey kv.1 kv.2 m) m).lookup key =
      ((kvs.findRev? fun kv => kv.1 = key).map (·.2)).or (m.lookup key) := by
  induction kvs generalizing m with
  | nil => rfl
  | cons kv kvs ih =>
    rw [List.foldl_cons, ih, lookup_bindKey, List.findRev?]
    cases kvs.findRev? fun kv => kv.1 = key with
    | some found => rfl
    | none =>
      by_cases hk : kv.1 = key
      · simp [hk]
      · simp [hk, Ne.symm hk]

/-! ## Committees in order -/

/-- Strictly increasing in slot and index. -/
def InKeyOrder (cs : List Committee) : Prop := cs.Pairwise fun c d => lt c.key d.key

theorem mem_place {c d : Committee} {es : List Committee} (h : d ∈ place c es) : d = c ∨ d ∈ es := by
  induction es with
  | nil => exact Or.inl (List.mem_singleton.1 h)
  | cons e es ih =>
    rcases key_cases c e with hk | hk | hk
    · rw [place_before hk] at h
      exact List.mem_cons.1 h
    · rw [place_at hk] at h
      exact (List.mem_cons.1 h).imp_right (List.mem_cons_of_mem e)
    · rw [place_after hk] at h
      rcases List.mem_cons.1 h with rfl | h
      · exact Or.inr List.mem_cons_self
      · exact (ih h).imp_right (List.mem_cons_of_mem e)

theorem inKeyOrder_place (c : Committee) {es : List Committee} (h : InKeyOrder es) : InKeyOrder (place c es) := by
  induction es with
  | nil => exact List.pairwise_singleton _ c
  | cons e es ih =>
    obtain ⟨he, hes⟩ := List.pairwise_cons.1 h
    rcases key_cases c e with hk | hk | hk
    · rw [place_before hk]
      refine List.pairwise_cons.2 ⟨fun d hd => ?_, h⟩
      rcases List.mem_cons.1 hd with rfl | hd
      · exact hk
      · exact lt_trans hk (he d hd)
    · rw [place_at hk]
      refine List.pairwise_cons.2 ⟨fun d hd => ?_, hes⟩
      rw [hk]
      exact he d hd
    · rw [place_after hk]
      refine List.pairwise_cons.2 ⟨fun d hd => ?_, ih hes⟩
      rcases mem_place hd with rfl | hd
      · exact hk
      · exact he d hd

theorem inKeyOrder_placeAll (cs : List Committee) {es : List Committee} (h : InKeyOrder es) :
    InKeyOrder (placeAll cs es) := by
  induction cs generalizing es with
  | nil => exact h
  | cons c cs ih => exact ih (inKeyOrder_place c h)

/-- In a list in order the committee found under a key is the only one with this key. -/
theorem mem_iff_committeeAt {es : List Entry} (h : InKeyOrder (es.map (·.committee))) (c : Committee) :
    c ∈ es.map (·.committee) ↔ committeeAt es c.key = some c := by
  induction es with
  | nil => exact ⟨fun hc => absurd hc List.not_mem_nil, fun hc => by cases hc⟩
  | cons e es ih =>
    obtain ⟨he, hes⟩ := List.pairwise_cons.1 h
    rw [List.map_cons, List.mem_cons, committeeAt_cons]
    by_cases hk : e.committee.key = c.key
    · rw [if_pos hk, Option.some_inj]
      refine ⟨fun hc => ?_, fun hc => Or.inl hc.symm⟩
      rcases hc with hc | hc
      · exact hc.symm
      · exact absurd hk (ne_of_lt (he c hc))
    · rw [if_neg hk, ← ih hes]
      refine ⟨fun hc => ?_, Or.inr⟩
      rcases hc with rfl | hc
      · exact absurd rfl hk
      · exact hc

/-! ## Updates -/

namespace Store

/-- What reaches a store at once: a value put outside of any transaction, or all of one. -/
inductive Update where
  | put (key : String) (value : Bytes)
  | transaction (tx : Transaction)

namespace Update

/-- The metadata it writes, in order. -/
def metadata : Update → List (String × Bytes)
  | put key value => [(key, value)]
  | transaction tx => tx.metadata

/-- The committees it writes, in order. -/
def committees : Update → List Committee
  | put _ _ => []
  | transaction tx => tx.committees

end Update

def update (s : Store) : Update → Store
  | .put key value => s.putMetadata key value
  | .transaction tx => s.commit tx

/-- The store that these updates make of an empty one. -/
def replay (us : List Update) : Store := us.foldl update empty

/-- What is committed, without the counts of what happened to transactions. -/
def contents (s : Store) : List (String × Bytes) × List Entry := (s.metadata, s.entries)

theorem contents_update {s t : Store} (h : s.contents = t.contents) (u : Update) :
    (s.update u).contents = (t.update u).contents := by
  obtain ⟨hm, he⟩ := Prod.mk.inj h
  cases u with
  | put key value =>
    show (bindKey key value s.metadata, s.entries) = (bindKey key value t.metadata, t.entries)
    rw [hm, he]
  | transaction tx =>
    show (tx.metadata.foldl _ s.metadata, tx.committees.foldl _ s.entries) =
      (tx.metadata.foldl _ t.metadata, tx.committees.foldl _ t.entries)
    rw [hm, he]

/-- A view of the store that updates alone decide. -/
structure ByUpdates {α : Type} (view : Store → α) : Prop where
  begin : ∀ s, view s.begin = view s
  cancel : ∀ s, view s.cancel = view s
  update : ∀ {s t : Store}, view s = view t → ∀ u, view (s.update u) = view (t.update u)

theorem byUpdates_contents : ByUpdates contents := ⟨fun _ => rfl, fun _ => rfl, contents_update⟩

theorem metadata_updates (us : List Update) (s : Store) :
    (us.foldl update s).metadata =
      (us.flatMap Update.metadata).foldl (fun m kv => bindKey kv.1 kv.2 m) s.metadata := by
  induction us generalizing s with
  | nil => rfl
  | cons u us ih =>
    rw [List.foldl_cons, ih, List.flatMap_cons, List.foldl_append]
    cases u <;> rfl

theorem entries_updates (us : List Update) (s : Store) :
    (us.foldl update s).entries = (us.flatMap Update.committees).foldl (fun es c => placeEntry c es) s.entries := by
  induction us generalizing s with
  | nil => rfl
  | cons u us ih =>
    rw [List.foldl_cons, ih, List.flatMap_cons, List.foldl_append]
    cases u <;> rfl

/-- The store reads as if these updates, and nothing else, had reached it one after another. -/
structure ReadsAs (s : Store) (us : List Update) : Prop where
  contents : s.contents = (replay us).contents
  /-- Under a key is the last value written to it. -/
  metadata : ∀ key, s.readMetadata key = ((us.flatMap Update.metadata).findRev? fun kv => kv.1 = key).map (·.2)
  ordered : InKeyOrder s.committees
  /-- Listed is, for each slot and index written, the last committee written there. -/
  committees : ∀ c, c ∈ s.committees ↔ (us.flatMap Update.committees).findRev? (fun d => d.key = c.key) = some c

theorem readsAs_of_contents {s : Store} {us : List Update} (h : s.contents = (replay us).contents) : s.ReadsAs us := by
  obtain ⟨hm, he⟩ := Prod.mk.inj h
  have hm' := hm.trans (metadata_updates us empty)
  have he' := he.trans (entries_updates us empty)
  have hordered : InKeyOrder s.committees := by
    rw [Store.committees, he', map_placeEntries]
    exact inKeyOrder_placeAll _ List.Pairwise.nil
  refine ⟨h, fun key => ?_, hordered, fun c => ?_⟩
  · rw [readMetadata, hm', lookup_bindKeys]
    exact Option.or_none
  · rw [Store.committees, mem_iff_committeeAt hordered, he', committeeAt_placed]
    exact iff_of_eq (congrArg (· = some c) Option.or_none)

end Store

end CommitteeSync
