/-
  CommitteeSync.Proofs.SkippedValues — the values that are skipped are those of the grammar.

  Proved: what is skipped as a value is one, with the spaces before it (`skipValue_sound`), and
  a value is skipped whole when no byte follows that would continue a number
  (`skipValue_complete`). Both are shown of the readers of values, items and members at once
  (`Sound`, `Complete`), by induction on the fuel, one case for each production. Two of it for
  each byte are enough: a step of the readers takes a byte or opens a list.
-/

import CommitteeSync.Proofs.JsonGrammar

namespace CommitteeSync.Json

variable {ws bs rest : Bytes}

/-! ## Values -/

theorem ne_of_isDigit {b c : UInt8} (hb : isDigit b = true) (hc : isDigit c = false) : b ≠ c := by
  rintro rfl
  rw [hb] at hc
  cases hc

/-- The first byte of a value is no space and closes nothing. -/
theorem Value.head {v : Bytes} (h : Value v) : ∃ b more, v = b :: more ∧ isSpace b = false ∧ b ≠ closeBracket := by
  cases h with
  | number tok hn =>
    cases hn with
    | unsigned tok hu =>
      obtain ⟨int, frac, exp, hint, -, -⟩ := hu
      cases hint with
      | zero => exact ⟨0x30, _, rfl, by decide, by decide⟩
      | positive d ds hd hz hds => exact ⟨d, _, rfl, isSpace_of_isDigit hd, ne_of_isDigit hd (by decide)⟩
    | negative tok hu => exact ⟨minus, _, rfl, by decide, by decide⟩
  | nullWord => exact ⟨_, _, rfl, by decide, by decide⟩
  | trueWord => exact ⟨_, _, rfl, by decide, by decide⟩
  | falseWord => exact ⟨_, _, rfl, by decide, by decide⟩
  | string body hb => exact ⟨_, _, rfl, by decide, by decide⟩
  | emptyArray ws hws => exact ⟨_, _, rfl, by decide, by decide⟩
  | array items hi => exact ⟨_, _, rfl, by decide, by decide⟩
  | emptyObject ws hws => exact ⟨_, _, rfl, by decide, by decide⟩
  | object members hm => exact ⟨_, _, rfl, by decide, by decide⟩

/-- Spaces may be put in front of the items. -/
theorem Items.spaced {items : Bytes} (hws : Space ws) (h : Items items) : Items (ws ++ items) := by
  cases h with
  | last before value after hb hv ha =>
    rw [← List.append_assoc]
    exact .last _ value after (hws.append hb) hv ha
  | more before value after items hb hv ha hi =>
    rw [← List.append_assoc]
    exact .more _ value after items (hws.append hb) hv ha hi

theorem memberBytes_spaced (ws before key afterKey beforeValue value after : Bytes) :
    ws ++ memberBytes before key afterKey beforeValue value after =
      memberBytes (ws ++ before) key afterKey beforeValue value after :=
  (List.append_assoc ..).symm

theorem Members.spaced {members : Bytes} (hws : Space ws) (h : Members members) : Members (ws ++ members) := by
  cases h with
  | last before key afterKey beforeValue value after hb hk hak hbv hv ha =>
    rw [memberBytes_spaced]
    exact .last _ key afterKey beforeValue value after (hws.append hb) hk hak hbv hv ha
  | more before key afterKey beforeValue value after members hb hk hak hbv hv ha hm =>
    rw [← List.append_assoc, memberBytes_spaced]
    exact .more _ key afterKey beforeValue value after members (hws.append hb) hk hak hbv hv ha hm

/-- What the three readers have taken is what they are for. -/
structure Sound (fuel : Nat) : Prop where
  value : ∀ bs rest, skipValueWithin fuel bs = .ok rest → ∃ ws v, bs = ws ++ (v ++ rest) ∧ Space ws ∧ Value v
  items : ∀ bs rest, skipItemsWithin fuel bs = .ok rest → ∃ items, bs = items ++ closeBracket :: rest ∧ Items items
  members : ∀ bs rest, skipMembersWithin fuel bs = .ok rest → ∃ members, bs = members ++ closeBrace :: rest ∧ Members members

variable {fuel : Nat}

theorem sound_value (ih : Sound fuel) (h : skipValueWithin (fuel + 1) bs = .ok rest) :
    ∃ ws v, bs = ws ++ (v ++ rest) ∧ Space ws ∧ Value v := by
  rw [skipValueWithin] at h
  cases hb : skipSpace bs with
  | nil => rw [hb] at h; cases h
  | cons b left =>
    rw [hb] at h
    obtain ⟨ws, hws, rfl⟩ := skipSpace_eq hb
    refine ⟨ws, ?_⟩
    have hfrom : ∀ v, Value v → b :: left = v ++ rest → ∃ v, ws ++ b :: left = ws ++ (v ++ rest) ∧ Space ws ∧ Value v :=
      fun v hv he => ⟨v, congrArg (ws ++ ·) he, hws, hv⟩
    dsimp only at h
    split at h
    · rename_i hn
      subst hn
      exact hfrom _ .nullWord (congrArg (_ :: ·) (expect_iff.1 h))
    split at h
    · rename_i ht
      subst ht
      exact hfrom _ .trueWord (congrArg (_ :: ·) (expect_iff.1 h))
    split at h
    · rename_i hf
      subst hf
      exact hfrom _ .falseWord (congrArg (_ :: ·) (expect_iff.1 h))
    split at h
    · rename_i hm
      subst hm
      obtain ⟨tok, rfl, htok⟩ := skipNumber_sound h
      exact hfrom _ (.number _ (.negative tok htok)) rfl
    split at h
    · obtain ⟨tok, hleft, htok⟩ := skipNumber_sound h
      exact hfrom _ (.number _ (.unsigned tok htok)) hleft
    split at h
    · rename_i hq
      subst hq
      obtain ⟨body, rfl, hbody⟩ := skipString_sound h
      exact hfrom _ (.string body hbody) (by simp)
    split at h
    · rename_i ha
      subst ha
      cases hc : skipSpace left with
      | nil => rw [hc] at h; cases h
      | cons c after =>
        rw [hc] at h
        obtain ⟨ws', hws', rfl⟩ := skipSpace_eq hc
        dsimp only at h
        split at h
        · rename_i hclose
          subst hclose
          cases h
          exact hfrom _ (.emptyArray ws' hws') (by simp)
        · obtain ⟨items, hitems, hi⟩ := ih.items _ _ h
          exact hfrom _ (.array _ (hi.spaced hws')) (by rw [hitems]; simp)
    split at h
    · rename_i ho
      subst ho
      cases hc : skipSpace left with
      | nil => rw [hc] at h; cases h
      | cons c after =>
        rw [hc] at h
        obtain ⟨ws', hws', rfl⟩ := skipSpace_eq hc
        dsimp only at h
        split at h
        · rename_i hclose
          subst hclose
          cases h
          exact hfrom _ (.emptyObject ws' hws') (by simp)
        · obtain ⟨members, hmembers, hm⟩ := ih.members _ _ h
          exact hfrom _ (.object _ (hm.spaced hws')) (by rw [hmembers]; simp)
    · cases h

theorem sound_items (ih : Sound fuel) (h : skipItemsWithin (fuel + 1) bs = .ok rest) :
    ∃ items, bs = items ++ closeBracket :: rest ∧ Items items := by
  rw [skipItemsWithin] at h
  split at h
  · cases h
  · rename_i left hleft
    obtain ⟨ws, v, rfl, hws, hv⟩ := ih.value _ _ hleft
    cases hb : skipSpace left with
    | nil => rw [hb] at h; cases h
    | cons b after =>
      rw [hb] at h
      obtain ⟨ws', hws', rfl⟩ := skipSpace_eq hb
      dsimp only at h
      split at h
      · rename_i hcomma
        subst hcomma
        obtain ⟨items, rfl, hi⟩ := ih.items _ _ h
        exact ⟨_, by simp, .more ws v ws' items hws hv hws' hi⟩
      split at h
      · rename_i hclose
        subst hclose
        cases h
        exact ⟨_, by simp, .last ws v ws' hws hv hws'⟩
      · cases h

theorem sound_members (ih : Sound fuel) (h : skipMembersWithin (fuel + 1) bs = .ok rest) :
    ∃ members, bs = members ++ closeBrace :: rest ∧ Members members := by
  rw [skipMembersWithin] at h
  cases hb : skipSpace bs with
  | nil => rw [hb] at h; cases h
  | cons b afterQuote =>
    rw [hb] at h
    obtain ⟨before, hbefore, rfl⟩ := skipSpace_eq hb
    dsimp only at h
    split at h
    · rename_i hq
      subst hq
      split at h
      · cases h
      · rename_i left hleft
        obtain ⟨key, rfl, hkey⟩ := skipString_sound hleft
        cases hc : skipSpace left with
        | nil => rw [hc] at h; cases h
        | cons c afterColon =>
          rw [hc] at h
          obtain ⟨afterKey, hafterKey, rfl⟩ := skipSpace_eq hc
          dsimp only at h
          split at h
          · rename_i hcolon
            subst hcolon
            split at h
            · cases h
            · rename_i left hleft
              obtain ⟨beforeValue, v, rfl, hbv, hv⟩ := ih.value _ _ hleft
              cases hd : skipSpace left with
              | nil => rw [hd] at h; cases h
              | cons d left =>
                rw [hd] at h
                obtain ⟨after, hafter, rfl⟩ := skipSpace_eq hd
                dsimp only at h
                split at h
                · rename_i hcomma
                  subst hcomma
                  obtain ⟨members, rfl, hm⟩ := ih.members _ _ h
                  exact ⟨_, by simp [memberBytes],
                    .more before key afterKey beforeValue v after members hbefore hkey hafterKey hbv hv hafter hm⟩
                split at h
                · rename_i hclose
                  subst hclose
                  cases h
                  exact ⟨_, by simp [memberBytes], .last before key afterKey beforeValue v after hbefore hkey hafterKey hbv hv hafter⟩
                · cases h
          · cases h
    · cases h

theorem sound (fuel : Nat) : Sound fuel := by
  induction fuel with
  | zero =>
    refine ⟨fun bs rest h => ?_, fun bs rest h => ?_, fun bs rest h => ?_⟩
    · rw [skipValueWithin] at h; cases h
    · rw [skipItemsWithin] at h; cases h
    · rw [skipMembersWithin] at h; cases h
  | succ fuel ih => exact ⟨fun _ _ => sound_value ih, fun _ _ => sound_items ih, fun _ _ => sound_members ih⟩

/-- What is skipped as a value is one, after spaces. -/
theorem skipValue_sound (h : skipValue bs = .ok rest) : ∃ ws v, bs = ws ++ (v ++ rest) ∧ Space ws ∧ Value v :=
  (sound _).value bs rest h

/-! ## What the readers take -/

theorem skipValueWithin_spaced (hws : Space ws) (bs : Bytes) : skipValueWithin fuel (ws ++ bs) = skipValueWithin fuel bs := by
  cases fuel with
  | zero => rw [skipValueWithin, skipValueWithin]
  | succ fuel => rw [skipValueWithin, skipValueWithin, skipSpace_spaced hws]

theorem skipItemsWithin_spaced (hws : Space ws) (bs : Bytes) : skipItemsWithin fuel (ws ++ bs) = skipItemsWithin fuel bs := by
  cases fuel with
  | zero => rw [skipItemsWithin, skipItemsWithin]
  | succ fuel => rw [skipItemsWithin, skipItemsWithin, skipValueWithin_spaced hws]

theorem skipMembersWithin_spaced (hws : Space ws) (bs : Bytes) :
    skipMembersWithin fuel (ws ++ bs) = skipMembersWithin fuel bs := by
  cases fuel with
  | zero => rw [skipMembersWithin, skipMembersWithin]
  | succ fuel => rw [skipMembersWithin, skipMembersWithin, skipSpace_spaced hws]

/-- A number is told by its first byte. -/
theorem skipValueWithin_number {tok : Bytes} (h : Number tok) (hr : Ends rest) :
    skipValueWithin (fuel + 1) (tok ++ rest) = .ok rest := by
  cases h with
  | negative tok h =>
    rw [List.cons_append, skipValueWithin, skipSpace_cons (by decide)]
    exact skipNumber_complete h hr
  | unsigned tok h =>
    obtain ⟨b, more, rfl, hs, -⟩ := (Value.number tok (.unsigned tok h)).head
    have hd : isDigit b = true := by
      generalize htok : b :: more = tok at h
      obtain ⟨int, frac, exp, hint, -, -⟩ := h
      cases hint with
      | zero =>
        cases htok
        decide
      | positive d ds hd hz hds =>
        cases htok
        exact hd
    rw [List.cons_append, skipValueWithin, skipSpace_cons hs]
    dsimp only
    rw [if_neg (ne_of_isDigit hd (by decide)), if_neg (ne_of_isDigit hd (by decide)), if_neg (ne_of_isDigit hd (by decide)),
      if_neg (ne_of_isDigit hd (by decide)), if_pos hd]
    exact skipNumber_complete h hr

/-- With this fuel the three readers take what they are for. -/
structure Complete (fuel : Nat) : Prop where
  value : ∀ v rest, Value v → 2 * v.length ≤ fuel → Ends rest → skipValueWithin fuel (v ++ rest) = .ok rest
  items : ∀ items rest, Items items → 2 * items.length + 1 ≤ fuel →
    skipItemsWithin fuel (items ++ closeBracket :: rest) = .ok rest
  members : ∀ members rest, Members members → 2 * members.length + 1 ≤ fuel →
    skipMembersWithin fuel (members ++ closeBrace :: rest) = .ok rest

/-- An array that is not empty is gone through from its first item. -/
theorem skipValueWithin_array {items : Bytes} (h : Items items) (rest : Bytes) :
    skipValueWithin (fuel + 1) (openBracket :: (items ++ closeBracket :: rest)) =
      skipItemsWithin fuel (items ++ closeBracket :: rest) := by
  have hfirst : ∃ before c more, items = before ++ c :: more ∧ Space before ∧ isSpace c = false ∧ c ≠ closeBracket := by
    cases h with
    | last before value after hb hv ha =>
      obtain ⟨c, more, rfl, hs, hc⟩ := hv.head
      exact ⟨before, c, _, rfl, hb, hs, hc⟩
    | more before value after items hb hv ha hi =>
      obtain ⟨c, more, rfl, hs, hc⟩ := hv.head
      exact ⟨before, c, _, rfl, hb, hs, hc⟩
  obtain ⟨before, c, more, rfl, hb, hs, hc⟩ := hfirst
  rw [skipValueWithin, skipSpace_cons (by decide), List.append_assoc, skipItemsWithin_spaced hb]
  dsimp only
  rw [skipSpace_spaced hb, List.cons_append, skipSpace_cons hs]
  exact if_neg hc

theorem skipValueWithin_object {members : Bytes} (h : Members members) (rest : Bytes) :
    skipValueWithin (fuel + 1) (openBrace :: (members ++ closeBrace :: rest)) =
      skipMembersWithin fuel (members ++ closeBrace :: rest) := by
  have hfirst : ∃ before more, members = before ++ quoteByte :: more ∧ Space before := by
    cases h with
    | last before key afterKey beforeValue value after hb hk hak hbv hv ha => exact ⟨before, _, rfl, hb⟩
    | more before key afterKey beforeValue value after members hb hk hak hbv hv ha hm =>
      exact ⟨before, _, List.append_assoc .., hb⟩
  obtain ⟨before, more, rfl, hb⟩ := hfirst
  rw [skipValueWithin, skipSpace_cons (by decide), List.append_assoc, skipMembersWithin_spaced hb]
  dsimp only
  rw [skipSpace_spaced hb, List.cons_append, skipSpace_cons (by decide)]
  rfl

theorem complete_value (ih : Complete fuel) {v : Bytes} (h : Value v) (hf : 2 * v.length ≤ fuel + 1) (hr : Ends rest) :
    skipValueWithin (fuel + 1) (v ++ rest) = .ok rest := by
  cases h with
  | nullWord =>
    rw [List.cons_append, skipValueWithin, skipSpace_cons (by decide)]
    exact expect_iff.2 rfl
  | trueWord =>
    rw [List.cons_append, skipValueWithin, skipSpace_cons (by decide)]
    exact expect_iff.2 rfl
  | falseWord =>
    rw [List.cons_append, skipValueWithin, skipSpace_cons (by decide)]
    exact expect_iff.2 rfl
  | number tok h => exact skipValueWithin_number h hr
  | string body h =>
    rw [List.cons_append, List.append_assoc, skipValueWithin, skipSpace_cons (by decide)]
    exact skipString_complete h rest
  | emptyArray ws h =>
    rw [List.cons_append, List.append_assoc, skipValueWithin, skipSpace_cons (by decide)]
    dsimp only
    rw [List.singleton_append, skipSpace_before h (by decide)]
    rfl
  | array items h =>
    rw [List.length_cons, List.length_append, List.length_singleton] at hf
    rw [List.cons_append, List.append_assoc]
    exact (skipValueWithin_array h rest).trans (ih.items items rest h (by omega))
  | emptyObject ws h =>
    rw [List.cons_append, List.append_assoc, skipValueWithin, skipSpace_cons (by decide)]
    dsimp only
    rw [List.singleton_append, skipSpace_before h (by decide)]
    rfl
  | object members h =>
    rw [List.length_cons, List.length_append, List.length_singleton] at hf
    rw [List.cons_append, List.append_assoc]
    exact (skipValueWithin_object h rest).trans (ih.members members rest h (by omega))

theorem complete_items (ih : Complete fuel) {items : Bytes} (h : Items items) (hf : 2 * items.length + 1 ≤ fuel + 1) :
    skipItemsWithin (fuel + 1) (items ++ closeBracket :: rest) = .ok rest := by
  cases h with
  | last before value after hb hv ha =>
    rw [List.length_append, List.length_append] at hf
    have hvalue := ih.value value (after ++ closeBracket :: rest) hv (by omega) (.before ha rfl _)
    rw [List.append_assoc, List.append_assoc, skipItemsWithin, skipValueWithin_spaced hb, hvalue]
    dsimp only
    rw [skipSpace_before ha (by decide)]
    rfl
  | more before value after items hb hv ha hi =>
    rw [List.length_append, List.length_append, List.length_append, List.length_cons] at hf
    have hvalue := ih.value value (after ++ comma :: (items ++ closeBracket :: rest)) hv (by omega) (.before ha rfl _)
    rw [List.append_assoc, List.append_assoc, List.append_assoc, List.cons_append, skipItemsWithin,
      skipValueWithin_spaced hb, hvalue]
    dsimp only
    rw [skipSpace_before ha (by decide)]
    exact ih.items items rest hi (by omega)

theorem memberBytes_append (before key afterKey beforeValue value after rest : Bytes) :
    memberBytes before key afterKey beforeValue value after ++ rest =
      before ++ quoteByte :: (key ++ quoteByte :: (afterKey ++ colon :: (beforeValue ++ (value ++ (after ++ rest))))) := by
  simp only [memberBytes, List.append_assoc, List.cons_append]

theorem length_memberBytes (before key afterKey beforeValue value after : Bytes) :
    value.length + 3 ≤ (memberBytes before key afterKey beforeValue value after).length := by
  simp only [memberBytes, List.length_append, List.length_cons]
  omega

/-- A member is gone through up to what follows its value. -/
theorem skipMembersWithin_member {before key afterKey beforeValue value after : Bytes} (ih : Complete fuel)
    (hb : Space before) (hk : StringBody key) (hak : Space afterKey) (hbv : Space beforeValue) (hv : Value value)
    (ha : Space after) {d : UInt8} (hd : isSpace d = false) (hr : isNumberByte d = false) (hf : 2 * value.length ≤ fuel) :
    skipMembersWithin (fuel + 1) (memberBytes before key afterKey beforeValue value after ++ d :: rest) =
      if d = comma then skipMembersWithin fuel rest
      else if d = closeBrace then .ok rest
      else .error .malformed := by
  have hvalue := ih.value value (after ++ d :: rest) hv hf (.before ha hr rest)
  rw [memberBytes_append, skipMembersWithin, skipSpace_before hb (by decide)]
  dsimp only
  rw [if_pos rfl, skipString_complete hk]
  dsimp only
  rw [skipSpace_before hak (by decide)]
  dsimp only
  rw [if_pos rfl, skipValueWithin_spaced hbv, hvalue]
  dsimp only
  rw [skipSpace_before ha hd]

theorem complete_members (ih : Complete fuel) {members : Bytes} (h : Members members)
    (hf : 2 * members.length + 1 ≤ fuel + 1) : skipMembersWithin (fuel + 1) (members ++ closeBrace :: rest) = .ok rest := by
  cases h with
  | last before key afterKey beforeValue value after hb hk hak hbv hv ha =>
    have hlen := length_memberBytes before key afterKey beforeValue value after
    exact skipMembersWithin_member ih hb hk hak hbv hv ha (by decide) rfl (by omega)
  | more before key afterKey beforeValue value after members hb hk hak hbv hv ha hm =>
    have hlen := length_memberBytes before key afterKey beforeValue value after
    rw [List.length_append, List.length_cons] at hf
    rw [List.append_assoc]
    exact (skipMembersWithin_member ih hb hk hak hbv hv ha (by decide) rfl (by omega)).trans
      (ih.members members rest hm (by omega))

theorem complete (fuel : Nat) : Complete fuel := by
  induction fuel with
  | zero =>
    refine ⟨fun v rest h hf => ?_, fun items rest h hf => ?_, fun members rest h hf => ?_⟩
    · obtain ⟨b, more, rfl, -, -⟩ := h.head
      rw [List.length_cons] at hf
      omega
    · omega
    · omega
  | succ fuel ih =>
    exact ⟨fun _ _ h hf hr => complete_value ih h hf hr, fun _ _ h hf => complete_items ih h hf,
      fun _ _ h hf => complete_members ih h hf⟩

/-- A value is skipped whole, with the spaces before it, if no byte follows that would continue
    a number. -/
theorem skipValue_complete {v : Bytes} (hws : Space ws) (h : Value v) (hr : Ends rest) :
    skipValue (ws ++ (v ++ rest)) = .ok rest := by
  rw [skipValue, skipValueWithin_spaced hws]
  refine (complete _).value v rest h ?_ hr
  rw [List.length_append, List.length_append]
  omega

end CommitteeSync.Json
