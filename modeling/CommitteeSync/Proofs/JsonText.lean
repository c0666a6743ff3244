/-
  CommitteeSync.Proofs.JsonText — the strings and numbers that are read for their content.

  A string stands for bytes (`Unescapes`): its own, and for each escape those of the character
  it names, where two escaped surrogates name one together. It is read if these are UTF-8
  (`readText_iff`).

  A number is read if it is a plain run of digits, no zero in front of others, and fits a word
  (`Token`, `readWord_sound`, `readWord_complete`).
-/

import CommitteeSync.Proofs.JsonGrammar
import CommitteeSync.Proofs.Utf8

namespace CommitteeSync.Json

variable {ws bs rest content : Bytes}

/-! ## Strings -/

/-- What stands between the quotes, and the bytes it stands for. -/
inductive Unescapes : Bytes → Bytes → Prop
  | nil : Unescapes [] []
  | byte (b : UInt8) (raw content : Bytes) : b ≠ quoteByte → b ≠ backslash → ¬ b < 0x20 → Unescapes raw content →
      Unescapes (b :: raw) (b :: content)
  | escape (e c : UInt8) (raw content : Bytes) : simpleEscape? e = some c → Unescapes raw content →
      Unescapes (backslash :: e :: raw) (c :: content)
  | unicode (h₁ h₂ h₃ h₄ : UInt8) (c : Char) (raw content : Bytes) : hex4? h₁ h₂ h₃ h₄ = some c.toNat →
      Unescapes raw content →
      Unescapes (backslash :: letterU :: h₁ :: h₂ :: h₃ :: h₄ :: raw) (String.utf8EncodeChar c ++ content)
  | pair (h₁ h₂ h₃ h₄ k₁ k₂ k₃ k₄ : UInt8) (leading trailing : Nat) (c : Char) (raw content : Bytes) :
      hex4? h₁ h₂ h₃ h₄ = some leading → isLeading leading = true →
      hex4? k₁ k₂ k₃ k₄ = some trailing → isTrailing trailing = true → c.toNat = pairValue leading trailing →
      Unescapes raw content →
      Unescapes
        (backslash :: letterU :: h₁ :: h₂ :: h₃ :: h₄ :: backslash :: letterU :: k₁ :: k₂ :: k₃ :: k₄ :: raw)
        (String.utf8EncodeChar c ++ content)

theorem hexValue?_lt {b : UInt8} {v : Nat} (h : hexValue? b = some v) : v < 16 := by
  have hle : ∀ lo hi : UInt8, (decide (lo ≤ b) && decide (b ≤ hi)) = true → lo.toNat ≤ b.toNat ∧ b.toNat ≤ hi.toNat := by
    intro lo hi hb
    rw [Bool.and_eq_true, decide_eq_true_eq, decide_eq_true_eq] at hb
    exact hb
  unfold hexValue? at h
  split at h
  · rename_i hd
    cases h
    have := hle 0x30 0x39 hd
    simp only [UInt8.reduceToNat] at this
    simp only [digitValue]
    omega
  split at h
  · rename_i hd
    cases h
    have := hle _ _ hd
    simp only [UInt8.reduceToNat] at this
    omega
  split at h
  · rename_i hd
    cases h
    have := hle _ _ hd
    simp only [UInt8.reduceToNat] at this
    omega
  · cases h

theorem hex4?_lt {a b c d : UInt8} {n : Nat} (h : hex4? a b c d = some n) : n < 0x10000 := by
  unfold hex4? at h
  split at h
  · rename_i a' b' c' d' ha hb hc hd
    cases h
    have := hexValue?_lt ha
    have := hexValue?_lt hb
    have := hexValue?_lt hc
    have := hexValue?_lt hd
    omega
  · cases h

theorem isLeading_iff {n : Nat} : isLeading n = true ↔ 0xD800 ≤ n ∧ n ≤ 0xDBFF := by
  rw [isLeading, Bool.and_eq_true, decide_eq_true_eq, decide_eq_true_eq]

theorem isTrailing_iff {n : Nat} : isTrailing n = true ↔ 0xDC00 ≤ n ∧ n ≤ 0xDFFF := by
  rw [isTrailing, Bool.and_eq_true, decide_eq_true_eq, decide_eq_true_eq]

/-- A pair of surrogates is a code point. -/
theorem isValidChar_pairValue {n m : Nat} (hn : isLeading n = true) (hm : isTrailing m = true) :
    (pairValue n m).isValidChar := by
  rw [isLeading_iff] at hn
  rw [isTrailing_iff] at hm
  unfold pairValue
  exact Or.inr ⟨by omega, by omega⟩

theorem readTrailing_iff {m : Nat} : readTrailing bs = .ok (m, rest) ↔
    ∃ k₁ k₂ k₃ k₄, bs = backslash :: letterU :: k₁ :: k₂ :: k₃ :: k₄ :: rest ∧ hex4? k₁ k₂ k₃ k₄ = some m ∧
      isTrailing m = true := by
  constructor
  · intro h
    unfold readTrailing at h
    split at h
    · cases h
    · split at h
      · rename_i hb
        split at h
        · cases h
        · split at h
          · rename_i hu
            split at h
            · split at h
              · rename_i hex
                split at h
                · rename_i ht
                  cases h
                  exact ⟨_, _, _, _, by rw [hb, hu], hex, ht⟩
                · cases h
              · cases h
            · cases h
          · cases h
      · cases h
  · rintro ⟨k₁, k₂, k₃, k₄, rfl, hex, ht⟩
    simp only [readTrailing, if_true, hex, ht]

/-- An escape that is read, and what it stands for. -/
theorem readEscape_sound (h : readEscape bs = .ok (content, rest)) {raw more : Bytes}
    (hmore : Unescapes raw more) : ∃ front, bs = front ++ rest ∧ Unescapes (backslash :: (front ++ raw)) (content ++ more) := by
  unfold readEscape at h
  split at h
  · cases h
  · rename_i e bs
    split at h
    · rename_i he
      subst he
      split at h
      · rename_i h₁ h₂ h₃ h₄ left
        split at h
        · cases h
        · rename_i n hex
          split at h
          · cases h
          · rename_i htrailing
            split at h
            · rename_i hleading
              split at h
              · cases h
              · rename_i m left' ht
                obtain ⟨rfl, rfl⟩ := Prod.mk.inj (Except.ok.inj h)
                obtain ⟨k₁, k₂, k₃, k₄, rfl, hex', hm⟩ := readTrailing_iff.1 ht
                obtain ⟨c, hc⟩ := exists_char (isValidChar_pairValue hleading hm)
                refine ⟨[letterU, h₁, h₂, h₃, h₄, backslash, letterU, k₁, k₂, k₃, k₄], rfl, ?_⟩
                rw [← hc, utf8Bytes_char]
                exact .pair h₁ h₂ h₃ h₄ k₁ k₂ k₃ k₄ n m c raw more hex hleading hex' hm hc hmore
            · rename_i hleading
              obtain ⟨rfl, rfl⟩ := Prod.mk.inj (Except.ok.inj h)
              have hvalid : n.isValidChar := by
                have hlt := hex4?_lt hex
                rw [isTrailing_iff] at htrailing
                rw [isLeading_iff] at hleading
                by_cases hs : n < 0xD800
                · exact Or.inl hs
                · exact Or.inr ⟨by omega, by omega⟩
              obtain ⟨c, rfl⟩ := exists_char hvalid
              refine ⟨[letterU, h₁, h₂, h₃, h₄], rfl, ?_⟩
              rw [utf8Bytes_char]
              exact .unicode h₁ h₂ h₃ h₄ c raw more hex hmore
      · cases h
    · split at h
      · rename_i c hc
        cases h
        exact ⟨[e], rfl, .escape e c raw more hc hmore⟩
      · cases h

theorem readStringWithin_sound {fuel : Nat} (h : readStringWithin fuel bs = .ok (content, rest)) :
    ∃ raw, bs = raw ++ quoteByte :: rest ∧ Unescapes raw content := by
  induction fuel generalizing bs content with
  | zero => cases h
  | succ fuel ih =>
    cases bs with
    | nil => cases h
    | cons b bs =>
      rw [readStringWithin] at h
      split at h
      · rename_i hq
        cases h
        exact ⟨[], by rw [hq]; rfl, .nil⟩
      · rename_i hq
        split at h
        · rename_i hs
          split at h
          · cases h
          · rename_i escaped left hesc
            split at h
            · cases h
            · rename_i more rest' hmore
              cases h
              obtain ⟨raw, rfl, hraw⟩ := ih hmore
              obtain ⟨front, rfl, hfront⟩ := readEscape_sound hesc hraw
              exact ⟨_, by rw [hs, List.cons_append, List.append_assoc], hfront⟩
        · rename_i hs
          split at h
          · cases h
          · rename_i hc
            split at h
            · cases h
            · rename_i more rest' hmore
              cases h
              obtain ⟨raw, rfl, hraw⟩ := ih hmore
              exact ⟨b :: raw, rfl, .byte b raw more hq hs hc hraw⟩

/-- The bytes of a string take no more than their number of steps. -/
theorem readStringWithin_complete {raw : Bytes} (h : Unescapes raw content) (rest : Bytes) {fuel : Nat}
    (hf : raw.length < fuel) : readStringWithin fuel (raw ++ quoteByte :: rest) = .ok (content, rest) := by
  induction h generalizing fuel with
  | nil =>
    obtain ⟨fuel, rfl⟩ := Nat.exists_eq_add_one_of_ne_zero (Nat.ne_zero_of_lt hf)
    rfl
  | byte b raw content hq hs hc hraw ih =>
    obtain ⟨fuel, rfl⟩ := Nat.exists_eq_add_one_of_ne_zero (Nat.ne_zero_of_lt hf)
    rw [List.cons_append, readStringWithin, if_neg hq, if_neg hs, if_neg hc, ih (Nat.lt_of_succ_lt_succ hf)]
  | escape e c raw content hesc hraw ih =>
    obtain ⟨fuel, rfl⟩ := Nat.exists_eq_add_one_of_ne_zero (Nat.ne_zero_of_lt hf)
    have hu : e ≠ letterU := by
      rintro rfl
      cases hesc
    have hread : readEscape (e :: (raw ++ quoteByte :: rest)) = .ok ([c], raw ++ quoteByte :: rest) := by
      rw [readEscape.eq_def]
      refine (if_neg hu).trans ?_
      rw [hesc]
    rw [List.length_cons, List.length_cons] at hf
    rw [List.cons_append, List.cons_append, readStringWithin, if_neg (by decide), if_pos rfl, hread]
    dsimp only
    rw [ih (by omega)]
    rfl
  | unicode h₁ h₂ h₃ h₄ c raw content hex hraw ih =>
    obtain ⟨fuel, rfl⟩ := Nat.exists_eq_add_one_of_ne_zero (Nat.ne_zero_of_lt hf)
    have hnot : isTrailing c.toNat = false ∧ isLeading c.toNat = false := by
      have hvalid : c.toNat < 0xD800 ∨ 0xDFFF < c.toNat := c.valid.imp id And.left
      rw [Bool.eq_false_iff, Bool.eq_false_iff, Ne, isTrailing_iff, Ne, isLeading_iff]
      omega
    have hread : readEscape (letterU :: h₁ :: h₂ :: h₃ :: h₄ :: (raw ++ quoteByte :: rest)) =
        .ok (String.utf8EncodeChar c, raw ++ quoteByte :: rest) := by
      rw [← utf8Bytes_char]
      simp only [readEscape, if_true, hex, hnot.1, hnot.2, Bool.false_eq_true, if_false]
    simp only [List.length_cons] at hf
    simp only [List.cons_append]
    rw [readStringWithin, if_neg (by decide), if_pos rfl, hread]
    dsimp only
    rw [ih (by omega)]
  | pair h₁ h₂ h₃ h₄ k₁ k₂ k₃ k₄ n m c raw content hex hn hex' hm hc hraw ih =>
    obtain ⟨fuel, rfl⟩ := Nat.exists_eq_add_one_of_ne_zero (Nat.ne_zero_of_lt hf)
    have hnot : isTrailing n = false := by
      rw [Bool.eq_false_iff, Ne, isTrailing_iff]
      rw [isLeading_iff] at hn
      omega
    have htrailing : readTrailing (backslash :: letterU :: k₁ :: k₂ :: k₃ :: k₄ :: (raw ++ quoteByte :: rest)) =
        .ok (m, raw ++ quoteByte :: rest) :=
      readTrailing_iff.2 ⟨k₁, k₂, k₃, k₄, rfl, hex', hm⟩
    have hread : readEscape
        (letterU :: h₁ :: h₂ :: h₃ :: h₄ :: backslash :: letterU :: k₁ :: k₂ :: k₃ :: k₄ :: (raw ++ quoteByte :: rest)) =
        .ok (String.utf8EncodeChar c, raw ++ quoteByte :: rest) := by
      rw [← utf8Bytes_char, hc]
      simp only [readEscape, if_true, hex, hn, hnot, Bool.false_eq_true, if_false, htrailing]
    simp only [List.length_cons] at hf
    simp only [List.cons_append]
    rw [readStringWithin, if_neg (by decide), if_pos rfl, hread]
    dsimp only
    rw [ih (by omega)]

/-- A string is read if it ends and stands for UTF-8. -/
theorem readText_iff :
    readText bs = .ok (content, rest) ↔ ∃ raw, bs = raw ++ quoteByte :: rest ∧ Unescapes raw content ∧ Utf8 content := by
  rw [readText]
  constructor
  · intro h
    split at h
    · cases h
    · rename_i content' rest' hread
      split at h
      · rename_i hu
        cases h
        obtain ⟨raw, hbs, hraw⟩ := readStringWithin_sound hread
        exact ⟨raw, hbs, hraw, (isUtf8_iff _).1 hu⟩
      · cases h
  · rintro ⟨raw, rfl, hraw, hu⟩
    have hf : raw.length < (raw ++ quoteByte :: rest).length + 1 := by
      rw [List.length_append]
      omega
    rw [readStringWithin_complete hraw rest hf]
    exact if_pos ((isUtf8_iff content).2 hu)

/-! ## Numbers -/

/-- The number that decimal digits write, after `acc`. -/
def decimalFrom (acc : Nat) (ds : Bytes) : Nat := ds.foldl (fun acc b => acc * 10 + digitValue b) acc

/-- A plain run of digits that writes `n`. -/
def Token (n : Nat) (tok : Bytes) : Prop := Integer tok ∧ decimalFrom 0 tok = n

theorem le_decimalFrom (acc : Nat) (ds : Bytes) : acc ≤ decimalFrom acc ds := by
  induction ds generalizing acc with
  | nil => exact Nat.le_refl acc
  | cons d ds ih => exact Nat.le_trans (by omega) (ih (acc * 10 + digitValue d))

theorem digitsUpTo_sound {limit acc : Nat} (h : acc ≤ limit) (bs : Bytes) :
    ∃ ds, bs = ds ++ (digitsUpTo limit acc bs).2 ∧ (∀ b ∈ ds, isDigit b = true) ∧
      (digitsUpTo limit acc bs).1 = decimalFrom acc ds ∧ (digitsUpTo limit acc bs).1 ≤ limit := by
  induction bs generalizing acc with
  | nil => exact ⟨[], rfl, fun _ hb => absurd hb List.not_mem_nil, rfl, h⟩
  | cons b bs ih =>
    rw [digitsUpTo]
    split
    · rename_i hb
      rw [Bool.and_eq_true, decide_eq_true_eq] at hb
      obtain ⟨ds, hbs, hds, hv, hl⟩ := ih hb.2
      exact ⟨b :: ds, congrArg (b :: ·) hbs, List.forall_mem_cons.2 ⟨hb.1, hds⟩, hv, hl⟩
    · exact ⟨[], rfl, fun _ hb => absurd hb List.not_mem_nil, rfl, h⟩

theorem digitsUpTo_complete {limit acc : Nat} {ds : Bytes} (hds : ∀ b ∈ ds, isDigit b = true)
    (hl : decimalFrom acc ds ≤ limit) (hr : startsWith isDigit rest = false) :
    digitsUpTo limit acc (ds ++ rest) = (decimalFrom acc ds, rest) := by
  induction ds generalizing acc with
  | nil =>
    cases rest with
    | nil => rfl
    | cons b rest =>
      have hb : isDigit b = false := hr
      rw [List.nil_append, digitsUpTo, hb]
      rfl
  | cons d ds ih =>
    obtain ⟨hd, hds⟩ := List.forall_mem_cons.1 hds
    have hstep : (isDigit d && decide (acc * 10 + digitValue d ≤ limit)) = true := by
      rw [Bool.and_eq_true, decide_eq_true_eq]
      exact ⟨hd, Nat.le_trans (le_decimalFrom _ ds) hl⟩
    rw [List.cons_append, digitsUpTo, if_pos hstep]
    exact ih hds hl

theorem finishNumber_sound {n m : Nat} (h : finishNumber n bs = .ok (m, rest)) : m = n ∧ bs = rest := by
  cases bs with
  | nil =>
    cases h
    exact ⟨rfl, rfl⟩
  | cons b bs =>
    rw [finishNumber] at h
    split at h
    · cases h
    split at h
    · cases h
    · cases h
      exact ⟨rfl, rfl⟩

theorem finishNumber_complete {n : Nat} (h : Ends rest) : finishNumber n rest = .ok (n, rest) := by
  cases rest with
  | nil => rfl
  | cons b rest => rw [finishNumber, if_neg h.not_point, if_neg (Bool.eq_false_iff.1 h.not_mark)]

theorem digitValue_le {d : UInt8} (h : isDigit d = true) : digitValue d ≤ 9 := by
  rw [isDigit, Bool.and_eq_true, decide_eq_true_eq, decide_eq_true_eq] at h
  have hle : d.toNat ≤ 0x39 := h.2
  unfold digitValue
  omega

theorem readDigits_sound {n : Nat} (h : readDigits bs = .ok (n, rest)) :
    ∃ tok, bs = tok ++ rest ∧ Token n tok ∧ n ≤ wordLimit := by
  cases bs with
  | nil => cases h
  | cons d bs =>
    rw [readDigits] at h
    split at h
    · rename_i hz
      split at h
      · cases h
      · obtain ⟨rfl, rfl⟩ := finishNumber_sound h
        exact ⟨[0x30], by rw [hz]; rfl, ⟨.zero, rfl⟩, Nat.zero_le _⟩
    · rename_i hz
      split at h
      · rename_i hd
        have hle : digitValue d ≤ wordLimit := Nat.le_trans (digitValue_le hd) (by decide)
        obtain ⟨ds, hbs, hds, hv, hl⟩ := digitsUpTo_sound hle bs
        dsimp only at h
        split at h
        · cases h
        · obtain ⟨rfl, rfl⟩ := finishNumber_sound h
          refine ⟨d :: ds, congrArg (d :: ·) hbs, ⟨.positive d ds hd hz hds, ?_⟩, hl⟩
          rw [hv, decimalFrom, List.foldl_cons, Nat.zero_mul, Nat.zero_add]
          rfl
      · cases h

theorem readDigits_complete {n : Nat} {tok : Bytes} (h : Token n tok) (hl : n ≤ wordLimit) (hr : Ends rest) :
    readDigits (tok ++ rest) = .ok (n, rest) := by
  obtain ⟨hint, rfl⟩ := h
  cases hint with
  | zero =>
    rw [List.cons_append, List.nil_append, readDigits, if_pos rfl, if_neg (Bool.eq_false_iff.1 hr.not_digit)]
    exact finishNumber_complete hr
  | positive d ds hd hz hds =>
    have hv : decimalFrom 0 (d :: ds) = decimalFrom (digitValue d) ds := by
      rw [decimalFrom, List.foldl_cons, Nat.zero_mul, Nat.zero_add]
      rfl
    rw [hv] at hl ⊢
    rw [List.cons_append, readDigits, if_neg hz, if_pos hd, digitsUpTo_complete hds hl hr.not_digit]
    dsimp only
    rw [if_neg (Bool.eq_false_iff.1 hr.not_digit)]
    exact finishNumber_complete hr

/-- What is read as a word is a token that writes it, after spaces. -/
theorem readWord_sound {n : Nat} (h : readWord bs = .ok (n, rest)) :
    ∃ ws tok, bs = ws ++ (tok ++ rest) ∧ Space ws ∧ Token n tok ∧ n ≤ wordLimit := by
  rw [readWord] at h
  cases hb : skipSpace bs with
  | nil => rw [hb] at h; cases h
  | cons b left =>
    rw [hb] at h
    obtain ⟨ws, hws, rfl⟩ := skipSpace_eq hb
    dsimp only at h
    split at h
    · obtain ⟨tok, hleft, htok, hl⟩ := readDigits_sound h
      exact ⟨ws, tok, congrArg (ws ++ ·) hleft, hws, htok, hl⟩
    · cases h

theorem Integer.head {tok : Bytes} (h : Integer tok) : ∃ d ds, tok = d :: ds ∧ isDigit d = true := by
  cases h with
  | zero => exact ⟨0x30, [], rfl, rfl⟩
  | positive d ds hd hz hds => exact ⟨d, ds, rfl, hd⟩

/-- A token is read whole if it fits a word and no byte follows that would continue it. -/
theorem readWord_complete {n : Nat} {tok : Bytes} (hws : Space ws) (h : Token n tok) (hl : n ≤ wordLimit) (hr : Ends rest) :
    readWord (ws ++ (tok ++ rest)) = .ok (n, rest) := by
  rw [← readDigits_complete h hl hr]
  obtain ⟨d, ds, rfl, hd⟩ := h.1.head
  rw [List.cons_append, readWord, skipSpace_before hws (isSpace_of_isDigit hd)]
  exact if_pos hd

end CommitteeSync.Json
