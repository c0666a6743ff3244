/-
  CommitteeSync.Proofs.RecordRoundTrip — a written record is read back as it was.

  The written form is one of the texts of its record: an object with the field alone, whose
  name needs no unescaping, and the digits of the epoch (`recordText_encode`). So it is read
  as that record (`Record.decode_encode`).
-/

import CommitteeSync.Proofs.RecordLanguage

namespace CommitteeSync

/-! ## Digits -/

namespace Json

/-- A character's byte is a digit with the character's value. -/
theorem digit_of_isDigit {c : Char} (h : c.isDigit) :
    isDigit (UInt8.ofNat c.toNat) ∧ digitValue (UInt8.ofNat c.toNat) = c.toNat - '0'.toNat := by
  have hb : 48 ≤ c.toNat ∧ c.toNat ≤ 57 := by
    simpa [Char.isDigit, UInt32.le_iff_toNat_le] using h
  have hn : (UInt8.ofNat c.toNat).toNat = c.toNat := toNat_ofNat_of_lt (by omega)
  refine ⟨?_, by rw [digitValue, hn]; rfl⟩
  simp only [isDigit, Bool.and_eq_true, decide_eq_true_eq, UInt8.le_iff_toNat_le, hn]
  exact hb

/-- The bytes of digits write what the digits do. -/
theorem decimalFrom_asciiBytes {cs : List Char} (hd : ∀ c ∈ cs, c.isDigit) (n : Nat) :
    decimalFrom n (Record.asciiBytes cs) = Nat.ofDigitChars 10 cs n := by
  induction cs generalizing n with
  | nil => rfl
  | cons c cs ih =>
    obtain ⟨hc, hcs⟩ := List.forall_mem_cons.1 hd
    rw [Nat.ofDigitChars_cons, ← ih hcs, ← (digit_of_isDigit hc).2, Nat.mul_comm]
    rfl

/-- A positive number is not written with a zero in front. -/
theorem toDigits_head {n : Nat} (h : 0 < n) : ∃ c cs, Nat.toDigits 10 n = c :: cs ∧ '0'.toNat < c.toNat := by
  induction n using Nat.strongRecOn with
  | ind n ih =>
    by_cases hn : n < 10
    · refine ⟨n.digitChar, [], Nat.toDigits_of_lt_base hn, ?_⟩
      rw [Nat.toNat_digitChar_of_lt_ten hn]
      exact Nat.lt_add_of_pos_right h
    · obtain ⟨c, cs, hc, hne⟩ := ih (n / 10) (by omega) (by omega)
      refine ⟨c, cs ++ [(n % 10).digitChar], ?_, hne⟩
      rw [Nat.toDigits_of_base_le (by omega) (by omega), hc, List.cons_append]

/-- The digits of a number are a token that writes it. -/
theorem token_toDigits (n : Nat) : Token n (Record.asciiBytes (Nat.toDigits 10 n)) := by
  have hall : ∀ c ∈ Nat.toDigits 10 n, c.isDigit := fun c hc => Nat.isDigit_of_mem_toDigits (by decide) (by decide) hc
  refine ⟨?_, by rw [decimalFrom_asciiBytes hall, Nat.ofDigitChars_ten_toDigits]⟩
  rcases Nat.eq_zero_or_pos n with rfl | hp
  · exact .zero
  · obtain ⟨c, cs, hc, hne⟩ := toDigits_head hp
    rw [hc] at hall ⊢
    obtain ⟨hhead, htail⟩ := List.forall_mem_cons.1 hall
    obtain ⟨hd, hv⟩ := digit_of_isDigit hhead
    refine .positive _ _ hd (fun hz => ?_) fun b hb => ?_
    · rw [show UInt8.ofNat c.toNat = 0x30 from hz] at hv
      exact absurd hv (Nat.ne_of_lt (Nat.sub_pos_of_lt hne))
    · obtain ⟨c, hc, rfl⟩ := List.mem_map.1 hb
      exact (digit_of_isDigit (htail c hc)).1

/-! ## The field's name -/

/-- Bytes that stand for themselves in a string. -/
def isPlain (b : UInt8) : Bool := b != quoteByte && b != backslash && 0x20 ≤ b

theorem unescapes_plain {key : Bytes} (hk : ∀ b ∈ key, isPlain b) : Unescapes key key := by
  induction key with
  | nil => exact .nil
  | cons b key ih =>
    obtain ⟨hb, hkey⟩ := List.forall_mem_cons.1 hk
    simp only [isPlain, Bool.and_eq_true, bne_iff_ne, ne_eq, decide_eq_true_eq] at hb
    obtain ⟨⟨hq, hs⟩, hc⟩ := hb
    exact .byte b key key hq hs (by simpa using hc) (ih hkey)

end Json

/-! ## The record -/

namespace Record

open Json

/-- The bytes of the field's name. -/
def fieldBytes : Bytes := [0x6C, 0x61, 0x74, 0x65, 0x73, 0x74, 0x5F, 0x65, 0x70, 0x6F, 0x63, 0x68]

theorem asciiBytes_fieldName : asciiBytes fieldName = fieldBytes := by
  rw [show fieldName = ['l', 'a', 't', 'e', 's', 't', '_', 'e', 'p', 'o', 'c', 'h'] from String.toList_ofList]
  rfl

/-- The name of the field needs no unescaping. -/
theorem isPlain_fieldName : ∀ b ∈ asciiBytes fieldName, isPlain b := by
  rw [asciiBytes_fieldName]
  exact List.all_eq_true.1 rfl

theorem key_fieldName : Key (asciiBytes fieldName) (asciiBytes fieldName) := by
  refine ⟨unescapes_plain isPlain_fieldName, ?_⟩
  rw [asciiBytes_fieldName]
  exact (isUtf8_iff _).1 (by decide)

theorem encode_eq (r : Record) : encode r =
    openBrace :: (memberBytes [] (asciiBytes fieldName) [] [] (asciiBytes (Nat.toDigits 10 r.latestEpoch.toNat)) [] ++
      [closeBrace]) := by
  have hopen : "\x7b\"".toList = ['\x7b', '"'] := String.toList_ofList
  have hclose : "\":".toList = ['"', ':'] := String.toList_ofList
  rw [encode, render, hopen, hclose, memberBytes_append]
  simp only [asciiBytes, List.map_append, List.append_assoc]
  rfl

/-- The written form of a record is an object with the field once. -/
theorem recordObject_encode (r : Record) : RecordObject r.latestEpoch.toNat (encode r) := by
  have htok := token_toDigits r.latestEpoch.toNat
  have hfields := Fields.last [] _ _ [] [] _ [] .nil key_fieldName .nil .nil (value_of_token htok) .nil
  exact ⟨_, _, _, encode_eq r, hfields, List.filter_cons_of_pos (decide_eq_true rfl), htok⟩

/-- The written form of a record is a text of it. -/
theorem recordText_encode (r : Record) : RecordText r.latestEpoch.toNat (encode r) :=
  ⟨[], encode r, [], (List.append_nil _).symm, .nil, .nil, Or.inl (recordObject_encode r)⟩

/-- What is written is read back. -/
theorem decode_encode (r : Record) : decode (some (encode r)) = .ok r := by
  have hread := read_of_text (recordText_encode r) (Nat.le_pred_of_lt r.latestEpoch.toNat_lt)
  rwa [UInt64.ofNat_toNat] at hread

end Record

end CommitteeSync
