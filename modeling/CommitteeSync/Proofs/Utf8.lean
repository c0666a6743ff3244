/-
  CommitteeSync.Proofs.Utf8 — the bytes that pass as UTF-8 are the encodings of texts.

  A code point is encoded in one to four bytes (`utf8Bytes_char`). What starts with the
  encoding of a code point is UTF-8 if the rest is (`isUtf8_utf8Bytes`), and what is UTF-8
  starts with one (`utf8_front`): so the check accepts the encodings of lists of characters
  and nothing else (`isUtf8_iff`).
-/

import CommitteeSync.Progress.Json

namespace CommitteeSync.Json

/-- The encoding of some text. -/
def Utf8 (bs : Bytes) : Prop := ∃ cs : List Char, bs = cs.flatMap String.utf8EncodeChar

/-! ## One code point -/

section

variable {n : Nat}

theorem utf8Bytes_one (h : n < 0x80) : utf8Bytes n = [UInt8.ofNat n] := if_pos h

theorem utf8Bytes_two (h : 0x80 ≤ n) (h' : n < 0x800) :
    utf8Bytes n = [UInt8.ofNat (0xC0 + n / 64), UInt8.ofNat (0x80 + n % 64)] := by
  rw [utf8Bytes, if_neg (Nat.not_lt.2 h), if_pos h']

theorem utf8Bytes_three (h : 0x800 ≤ n) (h' : n < 0x10000) :
    utf8Bytes n = [UInt8.ofNat (0xE0 + n / 4096), UInt8.ofNat (0x80 + n / 64 % 64), UInt8.ofNat (0x80 + n % 64)] := by
  rw [utf8Bytes, if_neg (by omega), if_neg (Nat.not_lt.2 h), if_pos h']

theorem utf8Bytes_four (h : 0x10000 ≤ n) :
    utf8Bytes n = [UInt8.ofNat (0xF0 + n / 262144), UInt8.ofNat (0x80 + n / 4096 % 64), UInt8.ofNat (0x80 + n / 64 % 64),
      UInt8.ofNat (0x80 + n % 64)] := by
  rw [utf8Bytes, if_neg (by omega), if_neg (by omega), if_neg (Nat.not_lt.2 h)]

theorem utf8Bytes_length (n : Nat) : 0 < (utf8Bytes n).length := by
  unfold utf8Bytes
  split
  · exact Nat.succ_pos _
  · split
    · exact Nat.succ_pos _
    · split
      · exact Nat.succ_pos _
      · exact Nat.succ_pos _

end

/-- The bytes of a code point are the library's. -/
theorem utf8Bytes_char (c : Char) : utf8Bytes c.toNat = String.utf8EncodeChar c := by
  have hc : c.toNat < 0x110000 := by
    rcases c.valid with h | h
    · exact Nat.lt_trans h (by decide)
    · exact h.2
  unfold String.utf8EncodeChar
  simp only [show c.val.toNat = c.toNat from rfl]
  generalize c.toNat = n at hc
  by_cases h₁ : n < 0x80
  · rw [utf8Bytes_one h₁, if_pos (Nat.le_of_lt_succ h₁)]
  rw [if_neg (by omega)]
  by_cases h₂ : n < 0x800
  · rw [utf8Bytes_two (Nat.not_lt.1 h₁) h₂, if_pos (Nat.le_of_lt_succ h₂), show n / 64 % 32 = n / 64 by omega,
      Nat.add_comm 0xC0, Nat.add_comm 0x80]
  rw [if_neg (by omega)]
  by_cases h₃ : n < 0x10000
  · rw [utf8Bytes_three (Nat.not_lt.1 h₂) h₃, if_pos (Nat.le_of_lt_succ h₃), show n / 4096 % 16 = n / 4096 by omega,
      Nat.add_comm 0xE0, Nat.add_comm 0x80, Nat.add_comm 0x80]
  · rw [utf8Bytes_four (Nat.not_lt.1 h₃), if_neg (by omega), show n / 262144 % 8 = n / 262144 by omega,
      Nat.add_comm 0xF0, Nat.add_comm 0x80, Nat.add_comm 0x80, Nat.add_comm 0x80]

theorem exists_char {n : Nat} (h : n.isValidChar) : ∃ c : Char, c.toNat = n :=
  ⟨Char.ofNatAux n h, rfl⟩

/-! ## By the first byte -/

/-- A byte that goes on with a code point. -/
def Tail (b : UInt8) : Prop := 0x80 ≤ b.toNat ∧ b.toNat ≤ 0xBF

theorem isContinuation_iff (b : UInt8) : isContinuation b = true ↔ Tail b := by
  rw [isContinuation, Bool.and_eq_true, decide_eq_true_eq, decide_eq_true_eq]
  rfl

variable {a b c d : UInt8} {rest : Bytes}

theorem isUtf8_one (h : a.toNat < 0x80) (rest : Bytes) : isUtf8 (a :: rest) = isUtf8 rest := by
  have ha : a < 0x80 := h
  cases rest with
  | nil => exact decide_eq_true ha
  | cons b rest =>
    rw [isUtf8.eq_def]
    cases rest with
    | nil => exact if_pos ha
    | cons c rest => exact if_pos ha

theorem isUtf8_two (h : 0xC2 ≤ a.toNat) (h' : a.toNat ≤ 0xDF) (rest : Bytes) :
    isUtf8 (a :: b :: rest) = true ↔ Tail b ∧ isUtf8 rest = true := by
  have hn : ¬ a < 0x80 := fun ha => absurd (Nat.le_trans h (Nat.le_of_lt ha)) (by decide)
  have ha : (decide (0xC2 ≤ a) && decide (a ≤ 0xDF)) = true := by
    rw [Bool.and_eq_true, decide_eq_true_eq, decide_eq_true_eq]
    exact ⟨h, h'⟩
  have hstep : isUtf8 (a :: b :: rest) = (isContinuation b && isUtf8 rest) := by
    rw [isUtf8.eq_def]
    cases rest with
    | nil =>
      refine (if_neg hn).trans ?_
      rw [ha]
      exact (Bool.and_true _).symm
    | cons c rest => exact (if_neg hn).trans (if_pos ha)
  rw [hstep, Bool.and_eq_true, isContinuation_iff]

/-- The bounds on the second byte rule out longer forms than needed and surrogates. -/
theorem isUtf8_three (h : 0xE0 ≤ a.toNat) (h' : a.toNat ≤ 0xEF) (rest : Bytes) :
    isUtf8 (a :: b :: c :: rest) = true ↔
      Tail b ∧ Tail c ∧ (a.toNat = 0xE0 → 0xA0 ≤ b.toNat) ∧ (a.toNat = 0xED → b.toNat ≤ 0x9F) ∧ isUtf8 rest = true := by
  have hn : ¬ a < 0x80 := fun ha => absurd (Nat.le_trans h (Nat.le_of_lt ha)) (by decide)
  have h2 : ¬ (decide (0xC2 ≤ a) && decide (a ≤ 0xDF)) = true := by
    rw [Bool.and_eq_true, decide_eq_true_eq, decide_eq_true_eq]
    exact fun ha => absurd (Nat.le_trans h ha.2) (by decide)
  have ha : (decide (0xE0 ≤ a) && decide (a ≤ 0xEF)) = true := by
    rw [Bool.and_eq_true, decide_eq_true_eq, decide_eq_true_eq]
    exact ⟨h, h'⟩
  have hstep : isUtf8 (a :: b :: c :: rest) =
      (isContinuation b && isContinuation c && (a != 0xE0 || 0xA0 ≤ b) && (a != 0xED || b ≤ 0x9F) && isUtf8 rest) := by
    rw [isUtf8.eq_def]
    exact (if_neg hn).trans ((if_neg h2).trans (if_pos ha))
  rw [hstep]
  simp only [Bool.and_eq_true, Bool.or_eq_true, bne_iff_ne, ne_eq, decide_eq_true_eq, isContinuation_iff, and_assoc,
    ← UInt8.toNat_inj, UInt8.le_iff_toNat_le, UInt8.reduceToNat, ← Decidable.imp_iff_not_or]

/-- The bounds on the second byte rule out longer forms than needed and what is past the last
    code point. -/
theorem isUtf8_four (h : 0xF0 ≤ a.toNat) (h' : a.toNat ≤ 0xF4) (rest : Bytes) :
    isUtf8 (a :: b :: c :: d :: rest) = true ↔
      Tail b ∧ Tail c ∧ Tail d ∧ (a.toNat = 0xF0 → 0x90 ≤ b.toNat) ∧ (a.toNat = 0xF4 → b.toNat ≤ 0x8F) ∧
        isUtf8 rest = true := by
  have hn : ¬ a < 0x80 := fun ha => absurd (Nat.le_trans h (Nat.le_of_lt ha)) (by decide)
  have h2 : ¬ (decide (0xC2 ≤ a) && decide (a ≤ 0xDF)) = true := by
    rw [Bool.and_eq_true, decide_eq_true_eq, decide_eq_true_eq]
    exact fun ha => absurd (Nat.le_trans h ha.2) (by decide)
  have h3 : ¬ (decide (0xE0 ≤ a) && decide (a ≤ 0xEF)) = true := by
    rw [Bool.and_eq_true, decide_eq_true_eq, decide_eq_true_eq]
    exact fun ha => absurd (Nat.le_trans h ha.2) (by decide)
  have ha : (decide (0xF0 ≤ a) && decide (a ≤ 0xF4)) = true := by
    rw [Bool.and_eq_true, decide_eq_true_eq, decide_eq_true_eq]
    exact ⟨h, h'⟩
  have hstep : isUtf8 (a :: b :: c :: d :: rest) =
      (isContinuation b && isContinuation c && isContinuation d && (a != 0xF0 || 0x90 ≤ b) && (a != 0xF4 || b ≤ 0x8F) &&
        isUtf8 rest) := by
    rw [isUtf8.eq_def]
    exact (if_neg hn).trans ((if_neg h2).trans ((if_neg h3).trans (if_pos ha)))
  rw [hstep]
  simp only [Bool.and_eq_true, Bool.or_eq_true, bne_iff_ne, ne_eq, decide_eq_true_eq, isContinuation_iff, and_assoc,
    ← UInt8.toNat_inj, UInt8.le_iff_toNat_le, UInt8.reduceToNat, ← Decidable.imp_iff_not_or]

/-! ## The code point in front -/

theorem toNat_ofNat_of_lt {x : Nat} (h : x < 256) : (UInt8.ofNat x).toNat = x := by
  rw [UInt8.toNat_ofNat']
  exact Nat.mod_eq_of_lt h

theorem tail_ofNat (x : Nat) : Tail (UInt8.ofNat (0x80 + x % 64)) := by
  rw [Tail, toNat_ofNat_of_lt (by omega)]
  omega

/-- The encoding of a code point may stand in front of anything that is UTF-8. -/
theorem isUtf8_utf8Bytes {n : Nat} (h : n.isValidChar) (hr : isUtf8 rest = true) : isUtf8 (utf8Bytes n ++ rest) = true := by
  have hn : n < 0x110000 := by
    rcases h with h | h
    · exact Nat.lt_trans h (by decide)
    · exact h.2
  by_cases h₁ : n < 0x80
  · rw [utf8Bytes_one h₁]
    exact (isUtf8_one (by rw [toNat_ofNat_of_lt (by omega)]; exact h₁) rest).trans hr
  by_cases h₂ : n < 0x800
  · have ha : (UInt8.ofNat (0xC0 + n / 64)).toNat = 0xC0 + n / 64 := toNat_ofNat_of_lt (by omega)
    rw [utf8Bytes_two (Nat.not_lt.1 h₁) h₂]
    exact (isUtf8_two (by omega) (by omega) rest).2 ⟨tail_ofNat n, hr⟩
  by_cases h₃ : n < 0x10000
  · have ha : (UInt8.ofNat (0xE0 + n / 4096)).toNat = 0xE0 + n / 4096 := toNat_ofNat_of_lt (by omega)
    have hb : (UInt8.ofNat (0x80 + n / 64 % 64)).toNat = 0x80 + n / 64 % 64 := toNat_ofNat_of_lt (by omega)
    have hsurrogate : n < 0xD800 ∨ 0xDFFF < n := h.imp id And.left
    rw [utf8Bytes_three (Nat.not_lt.1 h₂) h₃]
    exact (isUtf8_three (by omega) (by omega) rest).2
      ⟨tail_ofNat (n / 64), tail_ofNat n, fun _ => by omega, fun _ => by omega, hr⟩
  · have ha : (UInt8.ofNat (0xF0 + n / 262144)).toNat = 0xF0 + n / 262144 := toNat_ofNat_of_lt (by omega)
    have hb : (UInt8.ofNat (0x80 + n / 4096 % 64)).toNat = 0x80 + n / 4096 % 64 := toNat_ofNat_of_lt (by omega)
    rw [utf8Bytes_four (Nat.not_lt.1 h₃)]
    exact (isUtf8_four (by omega) (by omega) rest).2
      ⟨tail_ofNat (n / 4096), tail_ofNat (n / 64), tail_ofNat n, fun _ => by omega, fun _ => by omega, hr⟩

/-- A byte is given by its number. -/
theorem ofNat_eq {x : Nat} (h : x = a.toNat) : UInt8.ofNat x = a := by
  rw [h]
  exact UInt8.ofNat_toNat

/-- The first byte says how many there are. -/
theorem utf8_length {bs : Bytes} (h : isUtf8 (a :: bs) = true) :
    a.toNat < 0x80 ∨
    (0xC2 ≤ a.toNat ∧ a.toNat ≤ 0xDF ∧ ∃ b rest, bs = b :: rest) ∨
    (0xE0 ≤ a.toNat ∧ a.toNat ≤ 0xEF ∧ ∃ b c rest, bs = b :: c :: rest) ∨
    (0xF0 ≤ a.toNat ∧ a.toNat ≤ 0xF4 ∧ ∃ b c d rest, bs = b :: c :: d :: rest) := by
  by_cases h₁ : a < 0x80
  · exact Or.inl h₁
  refine Or.inr ?_
  rw [isUtf8.eq_def] at h
  cases bs with
  | nil => exact absurd (of_decide_eq_true h) h₁
  | cons b bs =>
    cases bs with
    | nil =>
      dsimp only at h
      rw [if_neg h₁, Bool.and_eq_true, Bool.and_eq_true, decide_eq_true_eq, decide_eq_true_eq] at h
      exact Or.inl ⟨h.1.1, h.1.2, b, [], rfl⟩
    | cons c bs =>
      dsimp only at h
      rw [if_neg h₁] at h
      split at h
      · rename_i h₂
        rw [Bool.and_eq_true, decide_eq_true_eq, decide_eq_true_eq] at h₂
        exact Or.inl ⟨h₂.1, h₂.2, b, _, rfl⟩
      refine Or.inr ?_
      split at h
      · rename_i h₃
        rw [Bool.and_eq_true, decide_eq_true_eq, decide_eq_true_eq] at h₃
        exact Or.inl ⟨h₃.1, h₃.2, b, c, _, rfl⟩
      split at h
      · rename_i h₄
        rw [Bool.and_eq_true, decide_eq_true_eq, decide_eq_true_eq] at h₄
        cases bs with
        | nil => cases h
        | cons d bs => exact Or.inr ⟨h₄.1, h₄.2, b, c, d, _, rfl⟩
      · cases h

/-- What is UTF-8 starts with the encoding of a code point. -/
theorem utf8_front {bs : Bytes} (h : isUtf8 (a :: bs) = true) :
    ∃ n rest, n.isValidChar ∧ a :: bs = utf8Bytes n ++ rest ∧ isUtf8 rest = true := by
  rcases utf8_length h with h₁ | ⟨hl, hu, b, rest, rfl⟩ | ⟨hl, hu, b, c, rest, rfl⟩ | ⟨hl, hu, b, c, d, rest, rfl⟩
  · refine ⟨a.toNat, bs, Or.inl (Nat.lt_trans h₁ (by decide)), ?_, (isUtf8_one h₁ bs).symm.trans h⟩
    rw [utf8Bytes_one h₁, ofNat_eq rfl]
    rfl
  · obtain ⟨⟨hb, hb'⟩, hr⟩ := (isUtf8_two hl hu rest).1 h
    refine ⟨(a.toNat - 0xC0) * 64 + (b.toNat - 0x80), rest, Or.inl (by omega), ?_, hr⟩
    rw [utf8Bytes_two (by omega) (by omega), ofNat_eq (a := a) (by omega), ofNat_eq (a := b) (by omega)]
    rfl
  · obtain ⟨⟨hb, hb'⟩, ⟨hc, hc'⟩, hshort, hsurrogate, hr⟩ := (isUtf8_three hl hu rest).1 h
    refine ⟨(a.toNat - 0xE0) * 4096 + (b.toNat - 0x80) * 64 + (c.toNat - 0x80), rest, ?_, ?_, hr⟩
    · by_cases hd : a.toNat ≤ 0xED
      · exact Or.inl (by omega)
      · exact Or.inr ⟨by omega, by omega⟩
    · rw [utf8Bytes_three (by omega) (by omega), ofNat_eq (a := a) (by omega), ofNat_eq (a := b) (by omega),
        ofNat_eq (a := c) (by omega)]
      rfl
  · obtain ⟨⟨hb, hb'⟩, ⟨hc, hc'⟩, ⟨hd, hd'⟩, hshort, hlast, hr⟩ := (isUtf8_four hl hu rest).1 h
    refine ⟨(a.toNat - 0xF0) * 262144 + (b.toNat - 0x80) * 4096 + (c.toNat - 0x80) * 64 + (d.toNat - 0x80), rest,
      Or.inr ⟨by omega, by omega⟩, ?_, hr⟩
    rw [utf8Bytes_four (by omega), ofNat_eq (a := a) (by omega), ofNat_eq (a := b) (by omega),
      ofNat_eq (a := c) (by omega), ofNat_eq (a := d) (by omega)]
    rfl

/-- The bytes that pass are the encodings of texts. -/
theorem isUtf8_iff (bs : Bytes) : isUtf8 bs = true ↔ Utf8 bs := by
  constructor
  · intro h
    -- Each code point taken off the front leaves less.
    induction hlen : bs.length using Nat.strongRecOn generalizing bs with
    | ind len ih =>
      cases bs with
      | nil => exact ⟨[], rfl⟩
      | cons a bs =>
        obtain ⟨n, rest, hn, hbs, hr⟩ := utf8_front h
        obtain ⟨c, rfl⟩ := exists_char hn
        have hlt : rest.length < len := by
          have hne := utf8Bytes_length c.toNat
          rw [← hlen, hbs, List.length_append]
          omega
        obtain ⟨cs, rfl⟩ := ih rest.length hlt rest hr rfl
        exact ⟨c :: cs, by rw [hbs, utf8Bytes_char, List.flatMap_cons]⟩
  · rintro ⟨cs, rfl⟩
    induction cs with
    | nil => rfl
    | cons c cs ih =>
      rw [List.flatMap_cons, ← utf8Bytes_char]
      exact isUtf8_utf8Bytes c.valid ih

end CommitteeSync.Json
