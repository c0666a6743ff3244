/-
  CommitteeSync.Proofs.TornRecord — a written record with bytes missing, and with bytes after it.

  Only its closing brace makes the written form of a record complete. A cut may fall into the
  name, before or after the colon, or into the digits, which then are those of a smaller epoch:
  wherever it falls, the bytes end while something is still expected, and that is the flaw that
  is found (`read_of_cut`). What follows the brace is looked at last, and nothing but spaces may
  stand there (`read_encode_append`). So a record is read whole or not at all (`read_whole`).
-/

import CommitteeSync.Proofs.RecordRoundTrip

namespace CommitteeSync

/-! ## Tokens that are cut -/

namespace Json

variable {bs cut tok : Bytes} {n : Nat}

/-- A string without its closing quote, as long as nothing in it needs unescaping. -/
theorem readStringWithin_unclosed (h : ∀ b ∈ bs, isPlain b) (fuel : Nat) : readStringWithin fuel bs = .error .truncated := by
  induction bs generalizing fuel with
  | nil => cases fuel <;> rfl
  | cons b bs ih =>
    cases fuel with
    | zero => rfl
    | succ fuel =>
      obtain ⟨hb, hbs⟩ := List.forall_mem_cons.1 h
      simp only [isPlain, Bool.and_eq_true, bne_iff_ne, ne_eq, decide_eq_true_eq] at hb
      obtain ⟨⟨hq, hs⟩, hc⟩ := hb
      rw [readStringWithin, if_neg hq, if_neg hs, if_neg (by simpa using hc), ih hbs fuel]

theorem readText_unclosed (h : ∀ b ∈ bs, isPlain b) : readText bs = .error .truncated := by
  rw [readText, readStringWithin_unclosed h]

/-- The digits before a cut are an integer again, unless there are none. -/
theorem Integer.of_cut (h : Integer tok) (hp : cut <+: tok) (hne : cut ≠ []) : Integer cut := by
  cases h with
  | zero =>
    rcases List.prefix_cons_iff.1 hp with rfl | ⟨t, rfl, ht⟩
    · exact absurd rfl hne
    · rw [List.prefix_nil.1 ht]
      exact .zero
  | positive d ds hd hz hds =>
    rcases List.prefix_cons_iff.1 hp with rfl | ⟨t, rfl, ht⟩
    · exact absurd rfl hne
    · exact .positive d t hd hz fun b hb => hds b (ht.subset hb)

/-- What is left of a token by a cut writes a number that is no larger. -/
theorem Token.of_cut (h : Token n tok) (hp : cut <+: tok) (hne : cut ≠ []) : ∃ m, m ≤ n ∧ Token m cut := by
  refine ⟨decimalFrom 0 cut, ?_, h.1.of_cut hp hne, rfl⟩
  obtain ⟨lost, rfl⟩ := hp
  rw [← h.2, decimalFrom, decimalFrom, List.foldl_append]
  exact le_decimalFrom _ lost

/-- Space, tab, line feed and carriage return. -/
def spaces : Bytes := [0x20, 0x09, 0x0A, 0x0D]

theorem isSpace_iff {b : UInt8} : isSpace b = true ↔ b ∈ spaces := by
  simp only [isSpace, Bool.or_eq_true, beq_iff_eq, spaces, List.mem_cons, List.not_mem_nil, or_false, or_assoc]

end Json

/-! ## The record -/

namespace Record

open Json

variable {cut digits : Bytes} {n : Nat}

/-- The member of the field with its value cut off: no value is there. -/
theorem readMember_of_key (value : Bytes) (hv : value = [] ∨ value = [colon]) :
    readMember false (asciiBytes fieldName ++ quoteByte :: value) = .error .truncated := by
  rw [readMember, readText_iff.2 ⟨_, rfl, key_fieldName⟩]
  simp only [decide_true, Bool.and_false, Bool.false_eq_true, if_false]
  rcases hv with rfl | rfl <;> rfl

/-- A member that is cut: it cannot be read, or it can and the digits that are left end the bytes. -/
theorem readMember_of_cut (htok : Json.Token n digits) (hl : n ≤ wordLimit)
    (hp : cut <+: asciiBytes fieldName ++ quoteByte :: colon :: digits) :
    readMember false cut = .error .truncated ∨ ∃ m, readMember false cut = .ok (some m, []) := by
  obtain ⟨lost, hp⟩ := hp
  rcases List.append_eq_append_iff.1 hp with ⟨more, hname, -⟩ | ⟨after, rfl, hafter⟩
  · -- The cut falls into the name.
    have hplain : ∀ b ∈ cut, isPlain b := fun b hb =>
      isPlain_fieldName b (by rw [hname]; exact List.mem_append_left more hb)
    rw [readMember, readText_unclosed hplain]
    exact Or.inl rfl
  rcases List.prefix_cons_iff.1 ⟨lost, hafter.symm⟩ with rfl | ⟨afterQuote, rfl, hquoted⟩
  · rw [List.append_nil, readMember, readText_unclosed isPlain_fieldName]
    exact Or.inl rfl
  rcases List.prefix_cons_iff.1 hquoted with rfl | ⟨value, rfl, hvalue⟩
  · exact Or.inl (readMember_of_key [] (Or.inl rfl))
  by_cases hne : value = []
  · subst hne
    exact Or.inl (readMember_of_key [colon] (Or.inr rfl))
  · -- The cut falls after a digit.
    obtain ⟨m, hm, hcut⟩ := htok.of_cut hvalue hne
    have hread := readMember_complete key_fieldName .nil .nil (value_of_token hcut)
      (.field m rfl rfl hcut (Nat.le_trans hm hl)) (show Ends [] from rfl)
    rw [List.append_nil] at hread
    exact Or.inr ⟨m, hread⟩

/-- The members of an object end the bytes before the object ends. -/
theorem readMembersWithin_of_cut (htok : Json.Token n digits) (hl : n ≤ wordLimit)
    (hp : cut <+: asciiBytes fieldName ++ quoteByte :: colon :: digits) (fuel : Nat) :
    readMembersWithin fuel none cut = .error .truncated := by
  cases fuel with
  | zero => rfl
  | succ fuel =>
    rw [readMembersWithin]
    rcases readMember_of_cut htok hl hp with h | ⟨m, h⟩
    · rw [show readMember (Option.isSome none) cut = _ from h]
    · rw [show readMember (Option.isSome none) cut = _ from h]
      rfl

theorem encode_eq_snoc (r : Record) : encode r =
    (openBrace :: quoteByte :: (asciiBytes fieldName ++ quoteByte :: colon :: asciiBytes (Nat.toDigits 10 r.latestEpoch.toNat))) ++
      [closeBrace] := by
  rw [encode_eq, memberBytes_append]
  simp

/-- Without its last bytes, whichever these are, a written record is flawed by its end. -/
theorem read_of_cut {r : Record} (hp : cut <+: encode r) (hne : cut ≠ encode r) : read cut = .error .truncated := by
  rw [encode_eq_snoc] at hp hne
  rcases List.prefix_cons_iff.1 ((List.prefix_concat_iff.1 hp).resolve_left hne) with rfl | ⟨afterBrace, rfl, hbrace⟩
  · rfl
  rcases List.prefix_cons_iff.1 hbrace with rfl | ⟨cut, rfl, hmember⟩
  · rfl
  have hmembers := readMembersWithin_of_cut (token_toDigits _) (Nat.le_pred_of_lt r.latestEpoch.toNat_lt) hmember (cut.length + 1)
  have hvalue : readValue (openBrace :: quoteByte :: cut) = readMembersWithin (cut.length + 1) none cut := rfl
  rw [read, hvalue, hmembers]

/-- The brace completes the record, and what follows it is looked at only then. -/
theorem read_encode_append (r : Record) (more : Bytes) :
    read (encode r ++ more) = if (skipSpace more).isEmpty then .ok r else .error .malformed := by
  have hvalue : readValue (encode r ++ more) = .ok (r.latestEpoch.toNat, more) :=
    readValue_iff.2 ⟨[], encode r, rfl, .nil, Or.inl (recordObject_encode r), Nat.le_pred_of_lt r.latestEpoch.toNat_lt⟩
  rw [read, hvalue]
  dsimp only
  rw [UInt64.ofNat_toNat]

/-- A written record is read back, also with spaces after it. If any of its last bytes are
    missing its end is missed, and if anything but spaces follows, that is noticed. -/
theorem read_whole (n : Epoch) :
    decode (some (encode ⟨n⟩)) = .ok ⟨n⟩ ∧
    (∀ cut, cut <+: encode ⟨n⟩ → cut ≠ encode ⟨n⟩ → decode (some cut) = .error .truncated) ∧
    (∀ ws, (∀ b ∈ ws, b ∈ spaces) → decode (some (encode ⟨n⟩ ++ ws)) = .ok ⟨n⟩) ∧
    (∀ more, (∃ b ∈ more, b ∉ spaces) → decode (some (encode ⟨n⟩ ++ more)) = .error .malformed) := by
  refine ⟨decode_encode ⟨n⟩, fun cut hp hne => read_of_cut hp hne, fun ws hws => ?_, fun more hmore => ?_⟩
  · have hspace : Space ws := fun b hb => isSpace_iff.2 (hws b hb)
    exact (read_encode_append ⟨n⟩ ws).trans (if_pos (skipSpace_isEmpty_iff.2 hspace))
  · obtain ⟨b, hb, hother⟩ := hmore
    have hflawed : ¬ Space more := fun hspace => hother (isSpace_iff.1 (hspace b hb))
    exact (read_encode_append ⟨n⟩ more).trans (if_neg (mt skipSpace_isEmpty_iff.1 hflawed))

/-- The record of the last epoch as it is, cut after 4 of its 20 digits, with a line feed after
    it, and with a second record after it. -/
theorem read_whole_last :
    decode (some (encode ⟨lastWord⟩)) = .ok ⟨lastWord⟩ ∧ decode (some ((encode ⟨lastWord⟩).take 20)) = .error .truncated ∧
    decode (some (encode ⟨lastWord⟩ ++ [0x0A])) = .ok ⟨lastWord⟩ ∧
    decode (some (encode ⟨lastWord⟩ ++ encode ⟨0⟩)) = .error .malformed := by
  obtain ⟨hread, hcut, hspaces, hmore⟩ := read_whole lastWord
  have hfeed : ∀ b ∈ [(0x0A : UInt8)], b ∈ spaces := List.forall_mem_singleton.2 (by decide)
  exact ⟨hread, hcut _ (List.take_prefix 20 _) (by decide +kernel), hspaces [0x0A] hfeed,
    hmore (encode ⟨0⟩) ⟨openBrace, List.mem_cons_self, by decide⟩⟩

end Record

end CommitteeSync
