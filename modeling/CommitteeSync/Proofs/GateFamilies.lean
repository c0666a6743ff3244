/-
  CommitteeSync.Proofs.GateFamilies — each family of handles shares one gate and one permit.

  A handle is made on a gate of its own, or from another handle whose family it joins. A
  permit is outstanding from its admission until it is released or its name is used for
  another admission, which gives the earlier one back. Families and outstanding permits are
  told from the steps and their answers alone (`family`, `outstanding`), without a look at
  the gates.

  Proved, for any steps over any number of handles and permits (`one_permit_each`):
  (1) Handles stand for one gate just if they are of one family, and a family is answered as
      if its gate were the only one: the log of what was done there is that of a single gate.
  (2) A family has one outstanding permit at most. An attempt is admitted just if it has none,
      a handle reports just if it has one, and of the attempts between two releases the first
      is admitted and no other.
  (3) No making, renaming or forgetting of handles changes an answer to a permit or, through
      another handle of the family, to an attempt or a question.

  What ties the answers to the permits is that a gate is held just if some permit is
  outstanding there (`Tracks.held`); every step keeps this up, an admission because the gate
  it finds free has no permit to lose.
-/

import CommitteeSync.Proofs.SerialStore
import CommitteeSync.Proofs.SingleGate

namespace CommitteeSync

/-! ## What the steps and answers tell -/

namespace Registry

/-- The registry after these steps, the latest of which comes first. -/
def after (first : String) : List Step → Registry
  | [] => single first
  | s :: past => ((after first past).apply s).1

/-- The answer to a step that comes after these. -/
def answer (first : String) (past : List Step) (s : Step) : Answer := ((after first past).apply s).2

/-- How many families there are. -/
def families : List Step → Nat
  | [] => 1
  | .fresh _ :: past => families past + 1
  | _ :: past => families past

/-- The family of a handle, by its number in the order in which families were founded. -/
def family (first : String) : List Step → String → Option Nat
  | [], name => if name = first then some 0 else none
  | .clone copy handle :: past, name =>
    if name = copy then (family first past handle).or (family first past name) else family first past name
  | .fresh handle :: past, name => if name = handle then some (families past) else family first past name
  | .forget handle :: past, name => if name = handle then none else family first past name
  | _ :: past, name => family first past name

/-- The family to whose gate a permit was admitted, as long as it is outstanding. -/
def outstanding (first : String) : List Step → String → Option Nat
  | [], _ => none
  | .enter permit handle :: past, name =>
    if name = permit ∧ answer first past (.enter permit handle) = .admitted then family first past handle
    else outstanding first past name
  | .release permit :: past, name => if name = permit then none else outstanding first past name
  | _ :: past, name => outstanding first past name

/-- What a step does at the gate of a family, with its answer. An admission gives the permit back
    that had its name. -/
def usesBy (first : String) (past : List Step) (s : Step) (o : Nat) : List (Gate.Use × Answer) :=
  match s with
  | .enter permit handle =>
    (if family first past handle = some o then [(.attempt, answer first past s)] else []) ++
      if answer first past s = .admitted ∧ outstanding first past permit = some o then [(.giveBack, .released)] else []
  | .release permit => if outstanding first past permit = some o then [(.giveBack, answer first past s)] else []
  | .active handle => if family first past handle = some o then [(.ask, answer first past s)] else []
  | _ => []

/-- All that was done at the gate of a family, in order. -/
def log (first : String) : List Step → Nat → List (Gate.Use × Answer)
  | [], _ => []
  | s :: past, o => log first past o ++ usesBy first past s o

/-! ## Lookups -/

/-- The gate of this number; those that are not there yet are free. -/
def gateAt (r : Registry) (o : Nat) : Gate := r.gates[o]?.getD Gate.free

theorem getD_set {gates : List Gate} {o : Nat} (ho : o < gates.length) (g : Gate) (o' : Nat) :
    (gates.set o g)[o']?.getD Gate.free = if o' = o then g else gates[o']?.getD Gate.free := by
  by_cases h : o' = o
  · subst h
    simp [ho]
  · simp [h, List.getElem?_set_ne (Ne.symm h)]

theorem getD_append_free (gates : List Gate) (o : Nat) :
    (gates ++ [Gate.free])[o]?.getD Gate.free = gates[o]?.getD Gate.free := by
  rcases Nat.lt_trichotomy o gates.length with ho | ho | ho
  · rw [List.getElem?_append_left ho]
  · simp [ho]
  · rw [List.getElem?_eq_none (by simp; omega), List.getElem?_eq_none (by omega)]

theorem lookup_bindName (bound : String) (id : Nat) (names : List (String × Nat)) (name : String) :
    (bindName bound id names).lookup name = if name = bound then some id else names.lookup name := by
  unfold bindName
  by_cases h : name = bound
  · rw [if_pos h, h, Pool.lookup_cons_self]
  · rw [if_neg h, lookup_cons_ne h, lookup_filter_ne h]

variable {r : Registry}

theorem handles_giveBack (r : Registry) (permit : String) : (r.giveBack permit).handles = r.handles := by
  unfold giveBack
  split <;> rfl

theorem length_giveBack (r : Registry) (permit : String) : (r.giveBack permit).gates.length = r.gates.length := by
  unfold giveBack
  split
  · exact List.length_modify ..
  · rfl

theorem lookup_giveBack (r : Registry) (permit name : String) :
    (r.giveBack permit).permits.lookup name = if name = permit then none else r.permits.lookup name := by
  unfold giveBack
  split
  · by_cases h : name = permit
    · rw [if_pos h, h, Pool.lookup_erased]
    · rw [if_neg h, lookup_filter_ne h]
  · rename_i hnone
    by_cases h : name = permit
    · rw [if_pos h, h, hnone]
    · rw [if_neg h]

theorem gateAt_giveBack (r : Registry) (permit : String) (o : Nat) :
    (r.giveBack permit).gateAt o = if r.permits.lookup permit = some o then Gate.free else r.gateAt o := by
  unfold giveBack gateAt
  split
  · rename_i id hid
    rw [hid]
    dsimp only
    rw [List.getElem?_modify]
    by_cases h : id = o
    · cases r.gates[o]? <;> simp [h, Gate.exit]
    · cases r.gates[o]? <;> simp [h]
  · rename_i hnone
    rw [hnone, if_neg (Option.some_ne_none o).symm]

theorem gateOf?_eq {handle : String} {o : Nat} (h : r.handles.lookup handle = some o) (ho : o < r.gates.length) :
    r.gateOf? handle = some (o, r.gateAt o) := by
  simp [gateOf?, h, gateAt, List.getElem?_eq_getElem ho]

/-- The registry with a permit admitted to a gate, after the earlier one of its name is given back. -/
def grant (r : Registry) (permit : String) (o : Nat) : Registry :=
  { r.giveBack permit with
    gates := (r.giveBack permit).gates.set o ⟨true⟩
    permits := bindName permit o (r.giveBack permit).permits }

theorem gateAt_grant (permit : String) {o : Nat} (ho : o < r.gates.length) (o' : Nat) :
    (r.grant permit o).gateAt o' = if o' = o then ⟨true⟩ else (r.giveBack permit).gateAt o' :=
  getD_set (by rw [length_giveBack]; exact ho) ⟨true⟩ o'

/-- An attempt through a handle, by whether its gate is held. -/
theorem apply_enter (permit : String) {handle : String} {o : Nat} (h : r.handles.lookup handle = some o)
    (ho : o < r.gates.length) :
    r.apply (.enter permit handle) = if (r.gateAt o).held then (r, .denied) else (r.grant permit o, .admitted) := by
  rw [apply, gateOf?_eq h ho]
  dsimp only
  rw [Gate.enter?]
  cases (r.gateAt o).held <;> rfl

theorem apply_enter_unknown (permit : String) {handle : String} (h : r.handles.lookup handle = none) :
    r.apply (.enter permit handle) = (r, .denied) := by
  rw [apply, gateOf?, h]

theorem apply_active {handle : String} {o : Nat} (h : r.handles.lookup handle = some o) (ho : o < r.gates.length) :
    r.apply (.active handle) = (r, .active (r.gateAt o).held) := by
  rw [apply, gateOf?_eq h ho]
  rfl

/-! ## Gates and permits -/

/-- The registry is as families and outstanding permits have it. -/
structure Tracks (r : Registry) (family outstanding : String → Option Nat) (families : Nat) : Prop where
  gates : r.gates.length = families
  handles : ∀ name, r.handles.lookup name = family name
  within : ∀ name o, family name = some o → o < families
  permits : ∀ name, r.permits.lookup name = outstanding name
  /-- A gate is held just if a permit is outstanding there. -/
  held : ∀ o, (r.gateAt o).held = true ↔ ∃ p, outstanding p = some o
  one : ∀ p q o, outstanding p = some o → outstanding q = some o → p = q

theorem tracks_single (first : String) : Tracks (single first) (family first []) (outstanding first []) 1 := by
  refine ⟨rfl, fun name => ?_, fun name o h => ?_, fun _ => rfl, fun o => ?_, fun p q o h => ?_⟩
  · exact lookup_bindName first 0 [] name
  · unfold family at h
    split at h
    · cases h
      exact Nat.one_pos
    · cases h
  · constructor
    · intro h
      cases o <;> cases h
    · rintro ⟨p, hp⟩
      cases hp
  · cases h

namespace Tracks

variable {fam out : String → Option Nat} {n : Nat}

/-- An attempt is denied and changes nothing, or it finds a free gate and is admitted to it. -/
theorem enter_cases (h : Tracks r fam out n) (permit handle : String) :
    (r.apply (.enter permit handle) = (r, .denied) ∧ ∀ o, fam handle = some o → (r.gateAt o).held = true) ∨
    ∃ o, fam handle = some o ∧ (r.gateAt o).held = false ∧
      r.apply (.enter permit handle) = (r.grant permit o, .admitted) := by
  cases hf : fam handle with
  | none => exact Or.inl ⟨apply_enter_unknown permit ((h.handles handle).trans hf), fun o ho => nomatch ho⟩
  | some o =>
    have happly := apply_enter permit ((h.handles handle).trans hf) (h.gates.symm ▸ h.within handle o hf)
    cases hheld : (r.gateAt o).held with
    | true =>
      rw [hheld, if_pos rfl] at happly
      refine Or.inl ⟨happly, ?_⟩
      rintro _ ⟨⟩
      exact hheld
    | false =>
      rw [hheld, if_neg Bool.false_ne_true] at happly
      exact Or.inr ⟨o, rfl, hheld, happly⟩

theorem free_of_held_eq_false (h : Tracks r fam out n) {o : Nat} (hfree : (r.gateAt o).held = false) (p : String) :
    out p ≠ some o := by
  intro hp
  rw [(h.held o).2 ⟨p, hp⟩] at hfree
  cases hfree

theorem giveBack (h : Tracks r fam out n) (permit : String) :
    Tracks (r.giveBack permit) fam (fun name => if name = permit then none else out name) n := by
  refine ⟨?_, ?_, h.within, ?_, ?_, ?_⟩
  · rw [length_giveBack, h.gates]
  · intro name
    rw [handles_giveBack, h.handles]
  · intro name
    rw [lookup_giveBack, h.permits]
  · intro o
    rw [gateAt_giveBack, h.permits]
    by_cases hp : out permit = some o
    · -- The permit that is given back was the only one.
      rw [if_pos hp]
      constructor
      · intro hheld
        cases hheld
      · rintro ⟨q, hq⟩
        split at hq
        · cases hq
        · rename_i hne
          exact absurd (h.one q permit o hq hp) hne
    · rw [if_neg hp, h.held]
      constructor
      · rintro ⟨q, hq⟩
        refine ⟨q, ?_⟩
        rw [if_neg, hq]
        rintro rfl
        exact hp hq
      · rintro ⟨q, hq⟩
        split at hq
        · cases hq
        · exact ⟨q, hq⟩
  · intro p q o hp hq
    split at hp
    · cases hp
    · split at hq
      · cases hq
      · exact h.one p q o hp hq

/-- A permit that is not outstanding is admitted to a free gate. -/
theorem admits (h : Tracks r fam out n) {o : Nat} (ho : o < n) (hfree : (r.gateAt o).held = false) {permit : String}
    (hnone : out permit = none) :
    Tracks { r with gates := r.gates.set o ⟨true⟩, permits := bindName permit o r.permits } fam
      (fun name => if name = permit then some o else out name) n := by
  have hgate : ∀ o', Registry.gateAt { r with gates := r.gates.set o ⟨true⟩, permits := bindName permit o r.permits } o' =
      if o' = o then ⟨true⟩ else r.gateAt o' := getD_set (by rw [h.gates]; exact ho) ⟨true⟩
  have hother := h.free_of_held_eq_false hfree
  refine ⟨?_, h.handles, h.within, ?_, ?_, ?_⟩
  · rw [List.length_set, h.gates]
  · intro name
    rw [lookup_bindName, h.permits]
  · intro o'
    rw [hgate]
    by_cases ho' : o' = o
    · rw [if_pos ho']
      exact ⟨fun _ => ⟨permit, by rw [if_pos rfl, ho']⟩, fun _ => rfl⟩
    · rw [if_neg ho', h.held]
      constructor
      · rintro ⟨q, hq⟩
        refine ⟨q, ?_⟩
        rw [if_neg, hq]
        rintro rfl
        rw [hnone] at hq
        cases hq
      · rintro ⟨q, hq⟩
        split at hq
        · exact absurd (Option.some.inj hq).symm ho'
        · exact ⟨q, hq⟩
  · intro p q o' hp hq
    split at hp
    · rename_i hpermit
      split at hq
      · rename_i hq'
        rw [hpermit, hq']
      · cases hp
        exact absurd hq (hother q)
    · split at hq
      · cases hq
        exact absurd hp (hother p)
      · exact h.one p q o' hp hq

/-- So an admission gives the earlier permit of its name back and puts the new one in its place. -/
theorem enter (h : Tracks r fam out n) {o : Nat} (ho : o < n) (hfree : (r.gateAt o).held = false) (permit : String) :
    Tracks (r.grant permit o) fam (fun name => if name = permit then some o else out name) n := by
  have hfree' : ((r.giveBack permit).gateAt o).held = false := by
    rw [gateAt_giveBack]
    split
    · rfl
    · exact hfree
  have hout : (fun name => if name = permit then some o else if name = permit then none else out name) =
      fun name => if name = permit then some o else out name := by
    funext name
    split <;> rfl
  rw [← hout]
  exact (h.giveBack permit).admits ho hfree' (if_pos rfl)

/-- A name given to a handle on a gate that is there. -/
theorem bind (h : Tracks r fam out n) {o : Nat} (ho : o < n) (bound : String) :
    Tracks { r with handles := bindName bound o r.handles } (fun name => if name = bound then some o else fam name) out n := by
  refine ⟨h.gates, fun name => ?_, fun name o' hname => ?_, h.permits, h.held, h.one⟩
  · rw [lookup_bindName, h.handles]
  · split at hname
    · cases hname
      exact ho
    · exact h.within name o' hname

theorem forget (h : Tracks r fam out n) (handle : String) :
    Tracks { r with handles := r.handles.filter fun kv => kv.1 != handle }
      (fun name => if name = handle then none else fam name) out n := by
  refine ⟨h.gates, fun name => ?_, fun name o hname => ?_, h.permits, h.held, h.one⟩
  · by_cases hn : name = handle
    · rw [if_pos hn, hn, Pool.lookup_erased]
    · rw [if_neg hn, lookup_filter_ne hn, h.handles]
  · split at hname
    · cases hname
    · exact h.within name o hname

/-- One more gate, which nobody has a handle on yet. -/
theorem found (h : Tracks r fam out n) : Tracks { r with gates := r.gates ++ [Gate.free] } fam out (n + 1) := by
  refine ⟨?_, h.handles, fun name o hname => Nat.lt_succ_of_lt (h.within name o hname), h.permits, fun o => ?_, h.one⟩
  · rw [List.length_append, h.gates]
    rfl
  · have hgate : Registry.gateAt { r with gates := r.gates ++ [Gate.free] } o = r.gateAt o := getD_append_free r.gates o
    rw [hgate, h.held]

end Tracks

/-- A step that changes nothing leaves no permit behind either. -/
theorem outstanding_denied {first : String} {past : List Step} {permit handle : String}
    (h : answer first past (.enter permit handle) = .denied) :
    outstanding first (.enter permit handle :: past) = outstanding first past := by
  funext name
  rw [outstanding, h, if_neg (fun h => nomatch h.2)]

theorem outstanding_admitted {first : String} {past : List Step} {permit handle : String}
    (h : answer first past (.enter permit handle) = .admitted) :
    outstanding first (.enter permit handle :: past) =
      fun name => if name = permit then family first past handle else outstanding first past name := by
  funext name
  simp only [outstanding, h, and_true]

theorem family_clone {first : String} {past : List Step} {copy handle : String} :
    family first (.clone copy handle :: past) = fun name =>
      if name = copy then (family first past handle).or (family first past name) else family first past name := rfl

theorem tracks_after (first : String) (past : List Step) :
    Tracks (after first past) (family first past) (outstanding first past) (families past) := by
  induction past with
  | nil => exact tracks_single first
  | cons s past ih =>
    cases s with
    | enter permit handle =>
      rcases ih.enter_cases permit handle with ⟨happly, -⟩ | ⟨o, hf, hfree, happly⟩
      · rw [after, happly, outstanding_denied (by rw [answer, happly])]
        exact ih
      · rw [after, happly, outstanding_admitted (by rw [answer, happly]), hf]
        exact ih.enter (ih.within handle o hf) hfree permit
    | release permit => exact ih.giveBack permit
    | active handle => exact ih
    | clone copy handle =>
      rw [after, apply, ih.handles, family_clone]
      cases hf : family first past handle with
      | none =>
        simp only [Option.none_or, ite_self]
        exact ih
      | some o => exact ih.bind (ih.within handle o hf) copy
    | fresh handle =>
      have hafter : after first (.fresh handle :: past) =
          { after first past with
            gates := (after first past).gates ++ [Gate.free]
            handles := bindName handle (families past) (after first past).handles } := by
        rw [← ih.gates]
        rfl
      rw [hafter]
      exact ih.found.bind (Nat.lt_succ_self _) handle
    | forget handle => exact ih.forget handle

/-! ## Answers -/

variable {first : String} {past : List Step}

theorem answer_enter {handle : String} {o : Nat} (hf : family first past handle = some o) (permit : String) :
    answer first past (.enter permit handle) = if ((after first past).gateAt o).held then .denied else .admitted := by
  rw [answer]
  rcases (tracks_after first past).enter_cases permit handle with ⟨happly, hheld⟩ | ⟨o', hf', hfree, happly⟩
  · rw [happly, if_pos (hheld o hf)]
  · cases hf.symm.trans hf'
    rw [happly, hfree, if_neg Bool.false_ne_true]

theorem answer_active {handle : String} {o : Nat} (hf : family first past handle = some o) :
    answer first past (.active handle) = .active ((after first past).gateAt o).held := by
  have h := tracks_after first past
  rw [answer, apply_active ((h.handles handle).trans hf) (h.gates.symm ▸ h.within handle o hf)]

theorem answer_release (first : String) (past : List Step) (permit : String) :
    answer first past (.release permit) = if (outstanding first past permit).isSome then .released else .notHeld := by
  rw [← (tracks_after first past).permits]
  rfl

/-! ## One family -/

/-- A step that makes a handle, or lets a name go. -/
def Step.OnHandles : Step → Prop
  | .clone _ _ | .fresh _ | .forget _ => True
  | _ => False

theorem gateAt_onHandles {s : Step} (hs : s.OnHandles) (o : Nat) :
    (after first (s :: past)).gateAt o = (after first past).gateAt o := by
  cases s with
  | clone copy handle =>
    rw [after, apply]
    split <;> rfl
  | fresh handle => exact getD_append_free _ o
  | forget handle => rfl
  | _ => cases hs

theorem outstanding_onHandles {s : Step} (hs : s.OnHandles) : outstanding first (s :: past) = outstanding first past := by
  cases s with
  | clone copy handle => rfl
  | fresh handle => rfl
  | forget handle => rfl
  | _ => cases hs

/-- A step does at the gate of a family what these uses do, and is answered as they are. -/
structure Does (first : String) (past : List Step) (s : Step) (o : Nat) (us : List Gate.Use) : Prop where
  gate : (after first (s :: past)).gateAt o = ((after first past).gateAt o).after us
  uses : usesBy first past s o = ((after first past).gateAt o).record us

/-- A denied attempt is seen at the gate of its own family only, which stays held. -/
theorem denied_does {permit handle : String}
    (happly : (after first past).apply (.enter permit handle) = (after first past, .denied))
    (hheld : ∀ o, family first past handle = some o → ((after first past).gateAt o).held = true) (o : Nat) :
    ∃ us, Does first past (.enter permit handle) o us := by
  have hanswer : answer first past (.enter permit handle) = .denied := by rw [answer, happly]
  have hafter : after first (.enter permit handle :: past) = after first past := by rw [after, happly]
  by_cases hf : family first past handle = some o
  · have huse : ((after first past).gateAt o).use .attempt = ((after first past).gateAt o, .denied) := by
      rw [Gate.use_attempt, if_pos (hheld o hf)]
    refine ⟨[.attempt], ?_, ?_⟩
    · rw [hafter, Gate.after, List.foldl_cons, huse]
      rfl
    · simp only [usesBy, hf, hanswer, if_true, reduceCtorEq, false_and, if_false, List.append_nil]
      rw [Gate.record, huse]
      rfl
  · refine ⟨[], ?_, ?_⟩
    · rw [hafter]
      rfl
    · simp only [usesBy, hf, hanswer, reduceCtorEq, false_and, if_false, List.append_nil]
      rfl

/-- An admitted one holds that gate, and at another gate gives back the permit of its name. -/
theorem admitted_does {permit handle : String} {o' : Nat} (hf : family first past handle = some o')
    (hfree : ((after first past).gateAt o').held = false)
    (happly : (after first past).apply (.enter permit handle) = ((after first past).grant permit o', .admitted)) (o : Nat) :
    ∃ us, Does first past (.enter permit handle) o us := by
  have h := tracks_after first past
  have hanswer : answer first past (.enter permit handle) = .admitted := by rw [answer, happly]
  have hgate : (after first (.enter permit handle :: past)).gateAt o =
      if o = o' then ⟨true⟩
      else if outstanding first past permit = some o then Gate.free else (after first past).gateAt o := by
    rw [after, happly, ← h.permits, ← gateAt_giveBack]
    exact gateAt_grant permit (h.gates.symm ▸ h.within handle o' hf) o
  by_cases ho : o' = o
  · subst ho
    have hnone := h.free_of_held_eq_false hfree permit
    have huse : ((after first past).gateAt o').use .attempt = (⟨true⟩, .admitted) := by
      rw [Gate.use_attempt, hfree, if_neg Bool.false_ne_true]
    refine ⟨[.attempt], ?_, ?_⟩
    · rw [hgate, if_pos rfl, Gate.after, List.foldl_cons, huse]
      rfl
    · simp only [usesBy, hf, hanswer, hnone, if_true, and_false, if_false, List.append_nil]
      rw [Gate.record, huse]
      rfl
  · rw [if_neg (Ne.symm ho)] at hgate
    by_cases hp : outstanding first past permit = some o
    · refine ⟨[.giveBack], ?_, ?_⟩
      · rw [hgate, if_pos hp]
        rfl
      · simp only [usesBy, hf, hanswer, hp, Option.some_inj, ho, if_true, and_true, if_false, List.nil_append]
        rfl
    · refine ⟨[], ?_, ?_⟩
      · rw [hgate, if_neg hp]
        rfl
      · simp only [usesBy, hf, hanswer, hp, Option.some_inj, ho, and_false, if_false, List.append_nil]
        rfl

theorem exists_does (first : String) (past : List Step) (s : Step) (o : Nat) : ∃ us, Does first past s o us := by
  have h := tracks_after first past
  cases s with
  | enter permit handle =>
    rcases h.enter_cases permit handle with ⟨happly, hheld⟩ | ⟨o', hf, hfree, happly⟩
    · exact denied_does happly hheld o
    · exact admitted_does hf hfree happly o
  | release permit =>
    have hgate : (after first (.release permit :: past)).gateAt o = _ := gateAt_giveBack (after first past) permit o
    rw [h.permits] at hgate
    by_cases ho : outstanding first past permit = some o
    · refine ⟨[.giveBack], ?_, ?_⟩
      · rw [hgate, if_pos ho]
        rfl
      · simp only [usesBy, answer_release, ho, Option.isSome_some, if_true]
        rfl
    · refine ⟨[], ?_, ?_⟩
      · rw [hgate, if_neg ho]
        rfl
      · rw [usesBy, if_neg ho]
        rfl
  | active handle =>
    by_cases hf : family first past handle = some o
    · refine ⟨[.ask], rfl, ?_⟩
      rw [usesBy, if_pos hf, answer_active hf]
      rfl
    · refine ⟨[], rfl, ?_⟩
      rw [usesBy, if_neg hf]
      rfl
  | clone copy handle => exact ⟨[], @gateAt_onHandles _ _ (.clone copy handle) trivial o, rfl⟩
  | fresh handle => exact ⟨[], @gateAt_onHandles _ _ (.fresh handle) trivial o, rfl⟩
  | forget handle => exact ⟨[], @gateAt_onHandles _ _ (.forget handle) trivial o, rfl⟩

/-- The log of a family is that of a single gate, which is at the end as the gate of the family. -/
theorem log_alone (first : String) (past : List Step) (o : Nat) :
    (after first past).gateAt o = Gate.free.after ((log first past o).map (·.1)) ∧
    log first past o = Gate.free.record ((log first past o).map (·.1)) := by
  induction past with
  | nil =>
    refine ⟨?_, rfl⟩
    cases o <;> rfl
  | cons s past ih =>
    obtain ⟨us, hgate, huses⟩ := exists_does first past s o
    have hmap : (log first (s :: past) o).map (·.1) = (log first past o).map (·.1) ++ us := by
      rw [log, List.map_append, huses, Gate.map_record]
    rw [hmap, Gate.after_append, Gate.record_append, ← ih.1, ← ih.2, ← huses]
    exact ⟨hgate, rfl⟩

/-! ## All families -/

/-- A step on handles that leaves permits and gates alone: every permit is still given back as
    before, and to every handle of a family is answered what was answered to any handle of it. -/
structure LeavesPermits (first : String) (past : List Step) (s : Step) : Prop where
  outstanding : outstanding first (s :: past) = outstanding first past
  release : ∀ p, answer first (s :: past) (.release p) = answer first past (.release p)
  active : ∀ h h' o, family first past h = some o → family first (s :: past) h' = some o →
    answer first (s :: past) (.active h') = answer first past (.active h)
  enter : ∀ p h h' o, family first past h = some o → family first (s :: past) h' = some o →
    answer first (s :: past) (.enter p h') = answer first past (.enter p h)

theorem leavesPermits {s : Step} (hs : s.OnHandles) : LeavesPermits first past s := by
  refine ⟨outstanding_onHandles hs, fun p => ?_, fun h h' o hf hf' => ?_, fun p h h' o hf hf' => ?_⟩
  · rw [answer_release, answer_release, outstanding_onHandles hs]
  · rw [answer_active hf, answer_active hf', gateAt_onHandles hs]
  · rw [answer_enter hf, answer_enter hf', gateAt_onHandles hs]

/-- After these steps, what is seen of any family `o`, permit and handle. -/
structure OnePermitEach (first : String) (past : List Step) : Prop where
  /-- Handles stand for one gate just if they are of one family. -/
  shared : ∀ h k i j, family first past h = some i → family first past k = some j →
    ((after first past).gateOf? h = (after first past).gateOf? k ↔ i = j)
  /-- A family is answered as if its gate were the only one. -/
  alone : ∀ o, log first past o = Gate.free.record ((log first past o).map (·.1))
  one : ∀ p q o, outstanding first past p = some o → outstanding first past q = some o → p = q
  admitted : ∀ p h o, family first past h = some o →
    (answer first past (.enter p h) = .admitted ↔ ∀ q, outstanding first past q ≠ some o)
  denied : ∀ p h o, family first past h = some o →
    (answer first past (.enter p h) = .denied ↔ ∃ q, outstanding first past q = some o)
  active : ∀ h o, family first past h = some o → ∃ b, answer first past (.active h) = .active b ∧
    (b = true ↔ ∃ q, outstanding first past q = some o)
  /-- From the beginning or a release up to the next release, the first attempt is admitted only. -/
  firstOnly : ∀ o before stretch rest, log first past o = before ++ stretch ++ rest →
    (before = [] ∨ ∃ a, before.getLast? = some (.giveBack, a)) → (∀ use ∈ stretch, use.1 ≠ .giveBack) →
    Gate.attempts stretch = [] ∨ ∃ n, Gate.attempts stretch = .admitted :: List.replicate n .denied
  release : ∀ p, answer first past (.release p) = if (outstanding first past p).isSome then .released else .notHeld
  handles : ∀ s, s.OnHandles → LeavesPermits first past s

theorem one_permit_each (first : String) (past : List Step) : OnePermitEach first past := by
  have h := tracks_after first past
  have hgate : ∀ {handle o}, family first past handle = some o →
      (after first past).gateOf? handle = some (o, (after first past).gateAt o) := fun hf =>
    gateOf?_eq ((h.handles _).trans hf) (h.gates.symm ▸ h.within _ _ hf)
  refine ⟨?_, fun o => (log_alone first past o).2, h.one, ?_, ?_, ?_, ?_, answer_release first past, fun s => leavesPermits⟩
  · intro handle handle' i j hi hj
    rw [hgate hi, hgate hj, Option.some_inj]
    exact ⟨congrArg Prod.fst, fun hij => by rw [hij]⟩
  · intro p handle o hf
    rw [answer_enter hf, ← not_exists, ← h.held]
    cases ((after first past).gateAt o).held <;> simp
  · intro p handle o hf
    rw [answer_enter hf, ← h.held]
    cases ((after first past).gateAt o).held <;> simp
  · intro handle o hf
    exact ⟨_, answer_active hf, h.held o⟩
  · intro o before stretch rest hlog
    rw [(log_alone first past o).2] at hlog
    exact Gate.attempts_between hlog

/-- Two handles on one gate, one of them forgotten while its permit is outstanding, beside a
    handle on a gate of its own. -/
example : log "g" [.enter "c" "copy", .release "a", .enter "b" "copy", .forget "g", .enter "x" "other", .enter "a" "g",
    .fresh "other", .clone "copy" "g"] 0 =
    [(.attempt, .admitted), (.attempt, .denied), (.giveBack, .released), (.attempt, .admitted)] := by decide +kernel

end Registry

end CommitteeSync
