/-
  CommitteeSync.Proofs.WrittenForms — how numbers and log levels are written.

  A number is a run of ASCII digits, however long and with however many zeros in front, after
  a sign where one is allowed. A level is its number, its name in any mix of ASCII cases, or,
  for errors only, nothing. The readers accept these texts and no others, and what they read
  is what the text writes (`readUnsigned_iff`, `readSigned_iff`, `Level.read?_iff`).

  Trimming takes away all of a blank text (`trim_isEmpty_iff`) and nothing more of a text that
  has been trimmed (`trim_trim`).
-/

import CommitteeSync.Config.Level
import CommitteeSync.Text.Blank
import Mathlib.Algebra.Group.Int.Defs
import Mathlib.Algebra.Group.Nat.Defs
import Mathlib.Data.List.DropRight

namespace CommitteeSync

namespace Text

/-! ## Blanks -/

theorem trimChars_eq (cs : List Char) : trimChars cs = (cs.dropWhile isBlank).rdropWhile isBlank := rfl

theorem trimChars_eq_nil_iff {cs : List Char} : trimChars cs = [] ↔ ∀ c ∈ cs, isBlank c = true := by
  rw [trimChars_eq, List.rdropWhile_eq_nil_iff]
  constructor
  · intro h c hc
    rw [← @List.takeWhile_append_dropWhile _ isBlank cs] at hc
    rcases List.mem_append.1 hc with hc | hc
    · exact List.mem_takeWhile_imp hc
    · exact h c hc
  · intro h c hc
    exact h c ((List.dropWhile_sublist isBlank).subset hc)

theorem trimChars_trimChars (cs : List Char) : trimChars (trimChars cs) = trimChars cs := by
  -- What is left begins as the text without the blanks in front of it, so with no blank.
  have hfirst : (trimChars cs).dropWhile isBlank = trimChars cs := by
    have hprefix := List.rdropWhile_prefix isBlank (cs.dropWhile isBlank)
    rw [List.dropWhile_eq_self_iff]
    intro hl
    have hl' : 0 < (cs.dropWhile isBlank).length := hl.trans_le hprefix.length_le
    have hhead : (trimChars cs)[0] = (cs.dropWhile isBlank)[0] := hprefix.getElem hl
    rw [hhead]
    exact List.dropWhile_get_zero_not isBlank cs hl'
  rw [trimChars_eq (trimChars cs), hfirst]
  exact List.rdropWhile_idempotent isBlank _

theorem trim_trim (s : String) : trim (trim s) = trim s := by
  simp only [trim, String.toList_ofList, trimChars_trimChars]

theorem trim_isEmpty_iff {s : String} : (trim s).isEmpty = true ↔ ∀ c ∈ s.toList, isBlank c = true := by
  rw [← trimChars_eq_nil_iff, String.isEmpty_iff, trim]
  simp

/-! ## Numbers -/

/-- A run of digits and the number that it writes. -/
structure Numeral (cs : List Char) (n : Nat) : Prop where
  nonempty : cs ≠ []
  digits : ∀ c ∈ cs, isDigit c = true
  value : Nat.ofDigitChars 10 cs 0 = n

inductive Unsigned : List Char → Nat → Prop
  | plain {cs n} : Numeral cs n → Unsigned cs n
  | plus {cs n} : Numeral cs n → Unsigned ('+' :: cs) n

inductive Signed : List Char → Int → Prop
  | plain {cs n} : Numeral cs n → Signed cs n
  | plus {cs n} : Numeral cs n → Signed ('+' :: cs) n
  | minus {cs n} : Numeral cs n → Signed ('-' :: cs) (-n)

theorem le_ofDigitChars (cs : List Char) (acc : Nat) : acc ≤ Nat.ofDigitChars 10 cs acc := by
  induction cs generalizing acc with
  | nil => exact Nat.le_refl acc
  | cons c cs ih =>
    rw [Nat.ofDigitChars_cons]
    have hrest := ih (10 * acc + (c.toNat - '0'.toNat))
    omega

/-- More digits only make a number larger, so the range may be checked at any of them. -/
theorem readDigits_iff {limit : Nat} {overflow : IntegerError} {cs : List Char} {acc n : Nat} (hacc : acc ≤ limit) :
    readDigits limit overflow acc cs = .ok n ↔
      (∀ c ∈ cs, isDigit c = true) ∧ Nat.ofDigitChars 10 cs acc = n ∧ n ≤ limit := by
  induction cs generalizing acc with
  | nil =>
    rw [readDigits, Except.ok.injEq]
    constructor
    · rintro rfl
      exact ⟨fun c hc => absurd hc List.not_mem_nil, rfl, hacc⟩
    · rintro ⟨-, h, -⟩
      exact h
  | cons c cs ih =>
    rw [readDigits, List.forall_mem_cons, Nat.ofDigitChars_cons, Nat.mul_comm 10 acc]
    dsimp only
    split
    · rename_i hc
      split
      · rename_i hover
        have hgrows := le_ofDigitChars cs (acc * 10 + (c.toNat - 0x30))
        constructor
        · intro h
          cases h
        · rintro ⟨-, rfl, hn⟩
          exact absurd (hover.trans_le hgrows) (Nat.not_lt.2 hn)
      · rename_i hin
        rw [ih (Nat.not_lt.1 hin)]
        exact ⟨fun ⟨hcs, h⟩ => ⟨⟨hc, hcs⟩, h⟩, fun ⟨⟨_, hcs⟩, h⟩ => ⟨hcs, h⟩⟩
    · rename_i hc
      constructor
      · intro h
        cases h
      · rintro ⟨⟨h, -⟩, -⟩
        exact absurd h hc

theorem readDigits_numeral_iff {limit : Nat} (overflow : IntegerError) {cs : List Char} {n : Nat} (h : cs ≠ []) :
    readDigits limit overflow 0 cs = .ok n ↔ Numeral cs n ∧ n ≤ limit := by
  rw [readDigits_iff (Nat.zero_le limit)]
  constructor
  · rintro ⟨hcs, hn, hle⟩
    exact ⟨⟨h, hcs, hn⟩, hle⟩
  · rintro ⟨⟨-, hcs, hn⟩, hle⟩
    exact ⟨hcs, hn, hle⟩

theorem Numeral.head {c : Char} {cs : List Char} {n : Nat} (h : Numeral (c :: cs) n) : isDigit c = true :=
  h.digits c List.mem_cons_self

theorem readUnsigned_iff {cs : List Char} {n : Nat} : readUnsigned cs = .ok n ↔ Unsigned cs n ∧ n < 2 ^ 64 := by
  unfold readUnsigned
  split
  · constructor
    · intro h
      cases h
    · rintro ⟨⟨h⟩, -⟩
      exact absurd rfl h.nonempty
  · rw [readDigits_numeral_iff _ (List.cons_ne_nil _ _)]
    constructor
    · rintro ⟨h, hn⟩
      exact ⟨.plus h, by omega⟩
    · rintro ⟨h | h, hn⟩
      · exact absurd h.head (by decide)
      · exact ⟨h, by omega⟩
  · rename_i hnil hplus
    rw [readDigits_numeral_iff _ hnil]
    constructor
    · rintro ⟨h, hn⟩
      exact ⟨.plain h, by omega⟩
    · rintro ⟨h | h, hn⟩
      · exact ⟨h, by omega⟩
      · obtain ⟨d, ds, rfl⟩ := List.exists_cons_of_ne_nil h.nonempty
        exact absurd rfl (hplus d ds)

theorem map_readDigits_iff {limit : Nat} {overflow : IntegerError} {cs : List Char} (h : cs ≠ []) {f : Nat → Int}
    {z : Int} : (readDigits limit overflow 0 cs).map f = .ok z ↔ ∃ n, Numeral cs n ∧ n ≤ limit ∧ f n = z := by
  simp only [← and_assoc, ← readDigits_numeral_iff overflow h]
  cases readDigits limit overflow 0 cs <;> simp [Except.map]

theorem readSigned_iff {cs : List Char} {z : Int} :
    readSigned cs = .ok z ↔ Signed cs z ∧ -2 ^ 63 ≤ z ∧ z < 2 ^ 63 := by
  unfold readSigned
  split
  · constructor
    · intro h
      cases h
    · rintro ⟨⟨h⟩, -⟩
      exact absurd rfl h.nonempty
  · rw [map_readDigits_iff (List.cons_ne_nil _ _)]
    constructor
    · rintro ⟨n, h, hn, rfl⟩
      exact ⟨.plus h, by rw [Int.ofNat_eq_natCast]; omega⟩
    · rintro ⟨h | h | h, hz⟩
      · exact absurd h.head (by decide)
      · exact ⟨_, h, by omega, rfl⟩
  · rw [map_readDigits_iff (List.cons_ne_nil _ _)]
    constructor
    · rintro ⟨n, h, hn, rfl⟩
      exact ⟨.minus h, by rw [Int.ofNat_eq_natCast]; omega⟩
    · rintro ⟨h | h | h, hz⟩
      · exact absurd h.head (by decide)
      · exact ⟨_, h, by omega, rfl⟩
  · rename_i hnil hplus hminus
    rw [map_readDigits_iff hnil]
    constructor
    · rintro ⟨n, h, hn, rfl⟩
      exact ⟨.plain h, by rw [Int.ofNat_eq_natCast]; omega⟩
    · rintro ⟨h | h | h, hz⟩
      · exact ⟨_, h, by omega, rfl⟩
      · obtain ⟨d, ds, rfl⟩ := List.exists_cons_of_ne_nil h.nonempty
        exact absurd rfl (hplus d ds)
      · obtain ⟨d, ds, rfl⟩ := List.exists_cons_of_ne_nil h.nonempty
        exact absurd rfl (hminus d ds)

end Text

/-! ## Levels -/

namespace Level

open Text

/-- The texts that stand for a level. -/
inductive Written : List Char → Level → Prop
  | number {cs n l} : Unsigned cs n → ofNumber? n = some l → Written cs l
  | nothing : Written [] .error
  | name {cs l} : cs.map foldCase = l.name.toList → Written cs l

theorem ofName?_iff {cs : List Char} {l : Level} : ofName? cs = some l ↔ cs.map foldCase = l.name.toList := by
  unfold ofName?
  constructor
  · intro h
    have hname := @List.find?_some _ (fun l : Level => l.name.toList == cs.map foldCase) _ _ h
    exact (eq_of_beq hname).symm
  · intro h
    rw [h]
    cases l <;> rfl

theorem foldCase_of_isDigit {c : Char} (h : isDigit c = true) : foldCase c = c := by
  simp only [isDigit, Bool.and_eq_true, decide_eq_true_eq] at h
  unfold foldCase
  rw [if_neg]
  simp only [Bool.and_eq_true, decide_eq_true_eq]
  omega

/-- A name begins with a letter. -/
theorem head_name (l : Level) : ∃ c cs, l.name.toList = c :: cs ∧ isDigit c = false ∧ c ≠ '+' := by
  cases l <;> exact ⟨_, _, rfl, by decide, by decide⟩

/-- So no name is a number. -/
theorem name_ne_of_unsigned {cs : List Char} {n : Nat} (h : Unsigned cs n) (l : Level) :
    cs.map foldCase ≠ l.name.toList := by
  obtain ⟨d, ds, hname, hdigit, hsign⟩ := head_name l
  rw [hname]
  intro heq
  rcases h with h | h
  · obtain ⟨c, cs, rfl⟩ := List.exists_cons_of_ne_nil h.nonempty
    rw [List.map_cons, foldCase_of_isDigit h.head] at heq
    cases heq
    exact absurd h.head (by rw [hdigit]; exact Bool.false_ne_true)
  · cases heq
    exact hsign rfl

theorem lt_of_ofNumber? {n : Nat} {l : Level} (h : ofNumber? n = some l) : n < 6 :=
  (List.getElem?_eq_some_iff.1 h).1

theorem read?_iff {cs : List Char} {l : Level} : read? cs = some l ↔ Written cs l := by
  unfold read?
  split
  · rename_i n hn
    have hunsigned := (readUnsigned_iff.1 hn).1
    constructor
    · intro h
      rcases Option.or_eq_some_iff.1 h with h | ⟨-, h⟩
      · exact .number hunsigned h
      · exact .name (ofName?_iff.1 h)
    · intro h
      cases h with
      | number hm hl =>
        have hm' := readUnsigned_iff.2 ⟨hm, (lt_of_ofNumber? hl).trans (by decide)⟩
        rw [hn] at hm'
        cases hm'
        rw [hl]
        rfl
      | nothing => cases hn
      | name h => exact absurd h (name_ne_of_unsigned hunsigned l)
  · rename_i e he
    have hnumber : ∀ {n}, Unsigned cs n → ofNumber? n ≠ some l := by
      intro n h hl
      rw [readUnsigned_iff.2 ⟨h, (lt_of_ofNumber? hl).trans (by decide)⟩] at he
      cases he
    split
    · rename_i hempty
      rw [List.isEmpty_iff.1 hempty] at hnumber ⊢
      constructor
      · intro h
        cases h
        exact .nothing
      · intro h
        cases h with
        | number hn hl => exact absurd hl (hnumber hn)
        | nothing => rfl
        | name h =>
          obtain ⟨c, cs, hname, -⟩ := head_name l
          rw [hname] at h
          cases h
    · rename_i hempty
      rw [ofName?_iff]
      constructor
      · exact .name
      · intro h
        cases h with
        | number hn hl => exact absurd hl (hnumber hn)
        | nothing => exact absurd rfl hempty
        | name h => exact h

end Level

end CommitteeSync
