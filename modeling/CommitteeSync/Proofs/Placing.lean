/-
  CommitteeSync.Proofs.Placing — committees written again leave no trace.

  Apart from the counts of writes the store is a list of committees in key order, into which
  a transaction places its own one by one. Of two committees of one key the one placed later
  counts (`place_same`), and those of different keys do not get in each other's way
  (`place_comm`). So what a transaction places does not depend on whether the same had been
  placed just before (`placeAll_again`).
-/

import CommitteeSync.Store.Basic

namespace CommitteeSync

/-! ## The order of keys -/

namespace CommitteeKey

theorem lt_iff {a b : CommitteeKey} :
    lt a b ↔ a.1.toNat < b.1.toNat ∨ (a.1.toNat = b.1.toNat ∧ a.2.toNat < b.2.toNat) := by
  simp only [lt, Bool.or_eq_true, Bool.and_eq_true, decide_eq_true_eq, beq_iff_eq, UInt64.lt_iff_toNat_lt, UInt64.toNat_inj]

theorem eq_iff {a b : CommitteeKey} : a = b ↔ a.1.toNat = b.1.toNat ∧ a.2.toNat = b.2.toNat := by
  rw [Prod.ext_iff, UInt64.toNat_inj, UInt64.toNat_inj]

theorem not_lt_self (a : CommitteeKey) : ¬ lt a a := by
  rw [lt_iff]
  omega

theorem lt_asymm {a b : CommitteeKey} (h : lt a b) : ¬ lt b a := by
  rw [lt_iff] at *
  omega

theorem ne_of_lt {a b : CommitteeKey} (h : lt a b) : a ≠ b := by
  rw [lt_iff] at h
  rw [Ne, eq_iff]
  omega

theorem lt_trans {a b c : CommitteeKey} (h : lt a b) (h' : lt b c) : lt a c := by
  rw [lt_iff] at *
  omega

theorem lt_of_not_lt {a b : CommitteeKey} (h : ¬ lt a b) (hne : a ≠ b) : lt b a := by
  rw [lt_iff] at *
  rw [Ne, eq_iff] at hne
  omega

end CommitteeKey

open CommitteeKey

/-! ## Placing committees -/

/-- Writes one committee into committees kept in increasing key order. -/
def place (c : Committee) : List Committee → List Committee
  | [] => [c]
  | e :: es =>
    if CommitteeKey.lt c.key e.key then c :: e :: es
    else if c.key = e.key then c :: es
    else e :: place c es

theorem place_cons (c e : Committee) (es : List Committee) :
    place c (e :: es) =
      if CommitteeKey.lt c.key e.key then c :: e :: es else if c.key = e.key then c :: es else e :: place c es := rfl

/-- Writes committees one after another. -/
def placeAll (cs es : List Committee) : List Committee := cs.foldl (fun es c => place c es) es

theorem map_placeEntry (c : Committee) (es : List Entry) :
    (placeEntry c es).map (·.committee) = place c (es.map (·.committee)) := by
  induction es with
  | nil => rfl
  | cons e es ih =>
    simp only [placeEntry, List.map_cons, place_cons]
    split
    · rfl
    · split
      · rfl
      · rw [List.map_cons, ih]

theorem map_placeEntries (cs : List Committee) (es : List Entry) :
    (cs.foldl (fun es c => placeEntry c es) es).map (·.committee) = placeAll cs (es.map (·.committee)) := by
  induction cs generalizing es with
  | nil => rfl
  | cons c cs ih => rw [List.foldl_cons, ih, map_placeEntry]; rfl

variable {c d e : Committee} {es : List Committee}

theorem place_before (h : lt c.key e.key) : place c (e :: es) = c :: e :: es := by rw [place_cons, if_pos h]

theorem place_at (h : c.key = e.key) : place c (e :: es) = c :: es := by
  have hn : ¬ lt c.key e.key := by
    rw [h]
    exact not_lt_self _
  rw [place_cons, if_neg hn, if_pos h]

theorem place_after (h : lt e.key c.key) : place c (e :: es) = e :: place c es := by
  rw [place_cons, if_neg (lt_asymm h), if_neg fun he => ne_of_lt h he.symm]

/-- Where a committee goes among others. -/
theorem key_cases (c e : Committee) : lt c.key e.key ∨ c.key = e.key ∨ lt e.key c.key := by
  by_cases h : lt c.key e.key
  · exact Or.inl h
  · by_cases he : c.key = e.key
    · exact Or.inr (Or.inl he)
    · exact Or.inr (Or.inr (lt_of_not_lt h he))

/-- Of two committees of one key the later one counts. -/
theorem place_same (h : c.key = d.key) (es : List Committee) : place c (place d es) = place c es := by
  induction es with
  | nil => exact place_at h
  | cons e es ih =>
    rcases key_cases d e with hd | hd | hd
    · rw [place_before hd, place_at h, place_before (by rw [h]; exact hd)]
    · rw [place_at hd, place_at h, place_at (h.trans hd)]
    · rw [place_after hd, place_after (by rw [h]; exact hd), place_after (by rw [h]; exact hd), ih]

theorem place_comm_of_lt (h : lt c.key d.key) (es : List Committee) : place c (place d es) = place d (place c es) := by
  induction es with
  | nil => rw [show place d [] = [d] from rfl, show place c [] = [c] from rfl, place_before h, place_after h]; rfl
  | cons e es ih =>
    rcases key_cases c e with hc | hc | hc
    · -- `c` comes first, wherever `d` goes.
      rw [place_before hc, place_after h]
      rcases key_cases d e with hd | hd | hd
      · rw [place_before hd, place_before h]
      · rw [place_at hd, place_before h]
      · rw [place_after hd, place_before hc]
    · rw [place_at hc, place_after h, place_after (by rw [← hc]; exact h), place_at hc]
    · rw [place_after hc, place_after (lt_trans hc h), place_after (lt_trans hc h), place_after hc, ih]

/-- Committees of different keys may be placed in either order. -/
theorem place_comm (h : c.key ≠ d.key) (es : List Committee) : place c (place d es) = place d (place c es) := by
  rcases key_cases c d with hlt | heq | hgt
  · exact place_comm_of_lt hlt es
  · exact absurd heq h
  · exact (place_comm_of_lt hgt es).symm

/-- What is placed anyway need not be placed before. -/
theorem placeAll_place {cs : List Committee} (h : ∃ d ∈ cs, d.key = c.key) (es : List Committee) :
    placeAll cs (place c es) = placeAll cs es := by
  induction cs generalizing es with
  | nil =>
    obtain ⟨d, hd, -⟩ := h
    cases hd
  | cons d cs ih =>
    show placeAll cs (place d (place c es)) = placeAll cs (place d es)
    by_cases hk : d.key = c.key
    · rw [place_same hk]
    · obtain ⟨d', hd', hk'⟩ := h
      rcases List.mem_cons.1 hd' with rfl | hd'
      · exact absurd hk' hk
      · rw [place_comm hk, ih ⟨d', hd', hk'⟩]

theorem placeAll_placeAll {cs ds : List Committee} (h : ∀ c ∈ ds, ∃ d ∈ cs, d.key = c.key) (es : List Committee) :
    placeAll cs (placeAll ds es) = placeAll cs es := by
  induction ds generalizing es with
  | nil => rfl
  | cons c ds ih =>
    show placeAll cs (placeAll ds (place c es)) = _
    rw [ih fun c hc => h c (List.mem_cons_of_mem _ hc), placeAll_place (h c List.mem_cons_self)]

/-- Placing the same committees again changes nothing. -/
theorem placeAll_again (cs es : List Committee) : placeAll cs (placeAll cs es) = placeAll cs es :=
  placeAll_placeAll (fun c hc => ⟨c, hc, rfl⟩) es

end CommitteeSync
