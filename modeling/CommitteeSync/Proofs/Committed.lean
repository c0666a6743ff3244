/-
  CommitteeSync.Proofs.Committed — what can be looked up in the store after a commit.

  Metadata keys and committee keys are looked up one at a time. A commit changes the lookup
  of the keys it stages, where the last staging of a key counts, and of no other.
-/

import CommitteeSync.Store.Basic

namespace CommitteeSync

/-! ## Metadata -/

theorem lookup_cons_ne {α : Type} {key key' : String} (h : key' ≠ key) (value : α) (m : List (String × α)) :
    ((key, value) :: m).lookup key' = m.lookup key' := by
  rw [List.lookup_cons, beq_false_of_ne h]

theorem lookup_filter_ne {α : Type} {key key' : String} (h : key' ≠ key) (m : List (String × α)) :
    (m.filter fun kv => kv.1 != key).lookup key' = m.lookup key' := by
  induction m with
  | nil => rfl
  | cons kv m ih =>
    obtain ⟨k, v⟩ := kv
    by_cases hk : k = key
    · subst hk
      rw [lookup_cons_ne h, ← ih]
      simp
    · simp [hk, List.lookup_cons, ih]

theorem lookup_bindKey (key : String) (value : Bytes) (m : List (String × Bytes)) (key' : String) :
    (bindKey key value m).lookup key' = if key' = key then some value else m.lookup key' := by
  unfold bindKey
  by_cases h : key' = key
  · subst h; simp
  · rw [if_neg h, lookup_cons_ne h, lookup_filter_ne h]

/-! ## Committees -/

/-- The committee of this key among the entries. -/
def committeeAt (es : List Entry) (key : CommitteeKey) : Option Committee :=
  (es.find? fun e => e.committee.key = key).map (·.committee)

/-- The committed committee of this key. -/
def Store.committee? (s : Store) (key : CommitteeKey) : Option Committee := committeeAt s.entries key

theorem committeeAt_cons (e : Entry) (es : List Entry) (key : CommitteeKey) :
    committeeAt (e :: es) key = if e.committee.key = key then some e.committee else committeeAt es key := by
  unfold committeeAt
  by_cases h : e.committee.key = key <;> simp [h]

theorem committeeAt_placeEntry (c : Committee) (es : List Entry) (key : CommitteeKey) :
    committeeAt (placeEntry c es) key = if c.key = key then some c else committeeAt es key := by
  induction es with
  | nil => exact committeeAt_cons ⟨c, 1⟩ [] key
  | cons e es ih =>
    unfold placeEntry
    split
    · exact committeeAt_cons ⟨c, 1⟩ (e :: es) key
    · split
      · rename_i hk
        rw [committeeAt_cons, committeeAt_cons, ← hk]
        dsimp only
        split <;> rfl
      · rename_i hk
        rw [committeeAt_cons, committeeAt_cons, ih]
        by_cases hc : c.key = key
        · rw [if_pos hc, if_pos hc, if_neg fun he => hk (hc.trans he.symm)]
        · rw [if_neg hc, if_neg hc]

/-- Of several committees staged under one key the last one counts. -/
theorem committeeAt_placed (cs : List Committee) (es : List Entry) (key : CommitteeKey) :
    committeeAt (cs.foldl (fun es c => placeEntry c es) es) key =
      (cs.findRev? fun c => c.key = key).or (committeeAt es key) := by
  induction cs generalizing es with
  | nil => rfl
  | cons c cs ih =>
    rw [List.foldl_cons, ih, committeeAt_placeEntry, List.findRev?]
    cases cs.findRev? fun c => c.key = key with
    | some d => rfl
    | none => by_cases hc : c.key = key <;> simp [hc]

theorem findRev?_key {cs : List Committee} {key : CommitteeKey} (h : ∀ c ∈ cs, c.key ≠ key) :
    cs.findRev? (fun c => c.key = key) = none := by
  induction cs with
  | nil => rfl
  | cons c cs ih =>
    rw [List.findRev?, ih fun d hd => h d (List.mem_cons_of_mem _ hd)]
    simp [h c List.mem_cons_self]

/-- The last committee of a key is one of them, and of this key. -/
theorem findRev?_mem {cs : List Committee} {key : CommitteeKey} {c : Committee}
    (h : cs.findRev? (fun c => c.key = key) = some c) : c ∈ cs ∧ c.key = key := by
  rw [List.findRev?_eq_find?_reverse] at h
  have hkey := List.find?_some h
  exact ⟨List.mem_reverse.1 (List.mem_of_find?_eq_some h), of_decide_eq_true hkey⟩

/-- Where a key is there is a last committee of it. -/
theorem findRev?_exists {cs : List Committee} {c : Committee} (h : c ∈ cs) :
    ∃ d, cs.findRev? (fun d => d.key = c.key) = some d := by
  rw [List.findRev?_eq_find?_reverse, ← Option.isSome_iff_exists, List.find?_isSome]
  exact ⟨c, List.mem_reverse.2 h, decide_eq_true rfl⟩

end CommitteeSync
