/-
  CommitteeSync.Proofs.JsonGrammar — the grammar of JSON over bytes, and its tokens.

  Spaces, numbers, strings, and values built from them to any depth (`Value`, `Items`,
  `Members`). It is the loose grammar of values whose content does not matter: numbers have
  any size, and strings, keys among them, hold any bytes but raw controls and any four hex
  digits after an escaped `u`.

  Proved of each reader of a token: what it takes is the token (`skipNumber_sound`,
  `skipString_sound`), and it takes the whole of a token. For a string this is so whatever
  follows (`skipString_complete`), for a number when no byte follows that would continue it
  (`skipNumber_complete`, `Ends`).
-/

import CommitteeSync.Progress.Json

namespace CommitteeSync.Json

/-! ## The grammar -/

/-- Any number of spaces, tabs, line feeds and carriage returns. -/
def Space (ws : Bytes) : Prop := ∀ b ∈ ws, isSpace b = true

/-- One digit or more. -/
def Digits (ds : Bytes) : Prop := ds ≠ [] ∧ ∀ b ∈ ds, isDigit b = true

/-- A zero stands alone or not in front. -/
inductive Integer : Bytes → Prop
  | zero : Integer [0x30]
  | positive (d : UInt8) (ds : Bytes) : isDigit d = true → d ≠ 0x30 → (∀ b ∈ ds, isDigit b = true) → Integer (d :: ds)

inductive Fraction : Bytes → Prop
  | none : Fraction []
  | digits (ds : Bytes) : Digits ds → Fraction (point :: ds)

inductive Exponent : Bytes → Prop
  | none : Exponent []
  | digits (mark : UInt8) (sign ds : Bytes) : isExponentMark mark = true →
      (sign = [] ∨ sign = [plus] ∨ sign = [minus]) → Digits ds → Exponent (mark :: (sign ++ ds))

inductive Unsigned : Bytes → Prop
  | mk (int frac exp : Bytes) : Integer int → Fraction frac → Exponent exp → Unsigned (int ++ (frac ++ exp))

inductive Number : Bytes → Prop
  | unsigned (tok : Bytes) : Unsigned tok → Number tok
  | negative (tok : Bytes) : Unsigned tok → Number (minus :: tok)

/-- What stands between the quotes of a string. -/
inductive StringBody : Bytes → Prop
  | nil : StringBody []
  | byte (b : UInt8) (body : Bytes) : b ≠ quoteByte → b ≠ backslash → ¬ b < 0x20 → StringBody body → StringBody (b :: body)
  | escape (e c : UInt8) (body : Bytes) : simpleEscape? e = some c → StringBody body → StringBody (backslash :: e :: body)
  | unicode (h₁ h₂ h₃ h₄ : UInt8) (n : Nat) (body : Bytes) : hex4? h₁ h₂ h₃ h₄ = some n → StringBody body →
      StringBody (backslash :: letterU :: h₁ :: h₂ :: h₃ :: h₄ :: body)

/-- A member of an object, with the spaces that may stand in it. -/
def memberBytes (before key afterKey beforeValue value after : Bytes) : Bytes :=
  before ++ quoteByte :: (key ++ quoteByte :: (afterKey ++ colon :: (beforeValue ++ (value ++ after))))

mutual

inductive Value : Bytes → Prop
  | nullWord : Value (0x6E :: ull)
  | trueWord : Value (0x74 :: rue)
  | falseWord : Value (0x66 :: alse)
  | number (tok : Bytes) : Number tok → Value tok
  | string (body : Bytes) : StringBody body → Value (quoteByte :: (body ++ [quoteByte]))
  | emptyArray (ws : Bytes) : Space ws → Value (openBracket :: (ws ++ [closeBracket]))
  | array (items : Bytes) : Items items → Value (openBracket :: (items ++ [closeBracket]))
  | emptyObject (ws : Bytes) : Space ws → Value (openBrace :: (ws ++ [closeBrace]))
  | object (members : Bytes) : Members members → Value (openBrace :: (members ++ [closeBrace]))

/-- One item of an array or more. -/
inductive Items : Bytes → Prop
  | last (before value after : Bytes) : Space before → Value value → Space after → Items (before ++ (value ++ after))
  | more (before value after items : Bytes) : Space before → Value value → Space after → Items items →
      Items (before ++ (value ++ (after ++ comma :: items)))

/-- One member of an object or more. -/
inductive Members : Bytes → Prop
  | last (before key afterKey beforeValue value after : Bytes) : Space before → StringBody key → Space afterKey →
      Space beforeValue → Value value → Space after → Members (memberBytes before key afterKey beforeValue value after)
  | more (before key afterKey beforeValue value after members : Bytes) : Space before → StringBody key → Space afterKey →
      Space beforeValue → Value value → Space after → Members members →
      Members (memberBytes before key afterKey beforeValue value after ++ comma :: members)

end

/-! ## Spaces and words -/

variable {p : UInt8 → Bool} {ws bs rest : Bytes}

theorem Space.nil : Space [] := fun _ hb => absurd hb List.not_mem_nil

theorem Space.append {ws' : Bytes} (h : Space ws) (h' : Space ws') : Space (ws ++ ws') := fun b hb =>
  (List.mem_append.1 hb).elim (h b) (h' b)

/-- The bytes up to the first that fails `p`, and the rest. -/
theorem dropWhile_split (p : UInt8 → Bool) (bs : Bytes) :
    ∃ taken, bs = taken ++ bs.dropWhile p ∧ (∀ b ∈ taken, p b = true) ∧ (startsWith p bs = true → taken ≠ []) ∧
      startsWith p (bs.dropWhile p) = false := by
  induction bs with
  | nil => exact ⟨[], rfl, fun _ hb => absurd hb List.not_mem_nil, fun h => (by cases h), rfl⟩
  | cons b bs ih =>
    by_cases hb : p b = true
    · obtain ⟨taken, hbs, htaken, -, hr⟩ := ih
      rw [List.dropWhile_cons_of_pos hb]
      exact ⟨b :: taken, congrArg (b :: ·) hbs, List.forall_mem_cons.2 ⟨hb, htaken⟩, fun _ => List.cons_ne_nil b taken, hr⟩
    · rw [List.dropWhile_cons_of_neg hb]
      exact ⟨[], rfl, fun _ hb => absurd hb List.not_mem_nil, fun h => absurd h hb, Bool.eq_false_iff.2 hb⟩

theorem dropWhile_append (h : ∀ b ∈ ws, p b = true) (hr : startsWith p rest = false) : (ws ++ rest).dropWhile p = rest := by
  rw [List.dropWhile_append_of_pos h]
  cases rest with
  | nil => rfl
  | cons b rest => exact List.dropWhile_cons_of_neg (by rw [show p b = false from hr]; exact Bool.false_ne_true)

theorem isSpace_of_isDigit {b : UInt8} (h : isDigit b) : isSpace b = false := by
  refine Bool.eq_false_iff.2 fun hs => ?_
  simp only [isSpace, Bool.or_eq_true, beq_iff_eq] at hs
  rcases hs with ((rfl | rfl) | rfl) | rfl <;> cases h

theorem skipSpace_append (h : Space ws) (hr : startsWith isSpace rest = false) : skipSpace (ws ++ rest) = rest :=
  dropWhile_append h hr

theorem skipSpace_spaced (h : Space ws) (bs : Bytes) : skipSpace (ws ++ bs) = skipSpace bs :=
  List.dropWhile_append_of_pos h

theorem skipSpace_cons {b : UInt8} (h : isSpace b = false) (bs : Bytes) : skipSpace (b :: bs) = b :: bs :=
  skipSpace_append Space.nil h

theorem skipSpace_before (hws : Space ws) {b : UInt8} (h : isSpace b = false) (bs : Bytes) :
    skipSpace (ws ++ b :: bs) = b :: bs :=
  skipSpace_append hws h

/-- What comes after the spaces. -/
theorem skipSpace_eq {b : UInt8} (h : skipSpace bs = b :: rest) : ∃ ws, Space ws ∧ bs = ws ++ b :: rest := by
  obtain ⟨ws, hbs, hws, -, -⟩ := dropWhile_split isSpace bs
  refine ⟨ws, hws, ?_⟩
  rw [← h]
  exact hbs

theorem expect_iff {word : Bytes} : expect word bs = .ok rest ↔ bs = word ++ rest := by
  induction word generalizing bs with
  | nil => exact ⟨fun h => Except.ok.inj h, fun h => congrArg _ h⟩
  | cons w word ih =>
    cases bs with
    | nil => exact ⟨fun h => (by cases h), fun h => (by cases h)⟩
    | cons b bs =>
      rw [expect, List.cons_append, List.cons.injEq]
      by_cases hb : b = w
      · rw [if_pos hb, ih]
        exact (and_iff_right hb).symm
      · rw [if_neg hb]
        exact ⟨fun h => (by cases h), fun h => absurd h.1 hb⟩

/-! ## Numbers -/

/-- Bytes that would continue a number. -/
def isNumberByte (b : UInt8) : Bool := isDigit b || b == point || isExponentMark b

/-- What is left does not continue a number. -/
def Ends (rest : Bytes) : Prop := startsWith isNumberByte rest = false

theorem Ends.not_digit (h : Ends rest) : startsWith isDigit rest = false := by
  cases rest with
  | nil => rfl
  | cons b rest => exact Bool.eq_false_iff.2 fun hb => by simp [Ends, startsWith, isNumberByte, show isDigit b = true from hb] at h

theorem Ends.not_point {b : UInt8} (h : Ends (b :: rest)) : b ≠ point := by
  rintro rfl
  cases h

theorem Ends.not_mark {b : UInt8} (h : Ends (b :: rest)) : isExponentMark b = false := by
  refine Bool.eq_false_iff.2 fun hb => ?_
  simp [Ends, startsWith, isNumberByte, hb] at h

theorem Ends.spaced (h : Space ws) (hr : Ends rest) : Ends (ws ++ rest) := by
  cases ws with
  | nil => exact hr
  | cons b ws =>
    have hb : isSpace b = true := h b List.mem_cons_self
    simp only [isSpace, Bool.or_eq_true, beq_iff_eq] at hb
    rcases hb with ((rfl | rfl) | rfl) | rfl <;> rfl

theorem Ends.before (h : Space ws) {b : UInt8} (hb : isNumberByte b = false) (rest : Bytes) : Ends (ws ++ b :: rest) :=
  Ends.spaced h hb

theorem skipExponentDigits_sound (h : skipExponentDigits bs = .ok rest) : ∃ ds, bs = ds ++ rest ∧ Digits ds := by
  cases bs with
  | nil => cases h
  | cons b bs =>
    rw [skipExponentDigits] at h
    split at h
    · rename_i hb
      cases h
      obtain ⟨ds, hbs, hds, -, -⟩ := dropWhile_split isDigit bs
      exact ⟨b :: ds, congrArg (b :: ·) hbs, List.cons_ne_nil b ds, List.forall_mem_cons.2 ⟨hb, hds⟩⟩
    · cases h

theorem skipExponentDigits_complete {ds : Bytes} (h : Digits ds) (hr : Ends rest) :
    skipExponentDigits (ds ++ rest) = .ok rest := by
  obtain ⟨hne, hall⟩ := h
  cases ds with
  | nil => exact absurd rfl hne
  | cons b ds =>
    obtain ⟨hb, hds⟩ := List.forall_mem_cons.1 hall
    rw [List.cons_append, skipExponentDigits, if_pos hb, dropWhile_append hds hr.not_digit]

theorem skipExponentPart_sound (h : skipExponentPart bs = .ok rest) : ∃ exp, bs = exp ++ rest ∧ Exponent exp := by
  cases bs with
  | nil =>
    cases h
    exact ⟨[], rfl, .none⟩
  | cons mark bs =>
    rw [skipExponentPart] at h
    split at h
    · rename_i hmark
      cases bs with
      | nil => cases h
      | cons b bs =>
        rw [skipExponent] at h
        split at h
        · rename_i hsign
          obtain ⟨ds, rfl, hds⟩ := skipExponentDigits_sound h
          refine ⟨mark :: ([b] ++ ds), rfl, .digits mark [b] ds hmark (Or.inr ?_) hds⟩
          rw [Bool.or_eq_true, decide_eq_true_eq, decide_eq_true_eq] at hsign
          rcases hsign with rfl | rfl
          · exact Or.inl rfl
          · exact Or.inr rfl
        · obtain ⟨ds, hbs, hds⟩ := skipExponentDigits_sound h
          exact ⟨mark :: ([] ++ ds), congrArg (mark :: ·) hbs, .digits mark [] ds hmark (Or.inl rfl) hds⟩
    · cases h
      exact ⟨[], rfl, .none⟩

theorem not_sign_of_digit {b : UInt8} (h : isDigit b = true) : ¬ (decide (b = plus) || decide (b = minus)) = true := by
  rw [Bool.or_eq_true, decide_eq_true_eq, decide_eq_true_eq]
  rintro (rfl | rfl)
  · cases h
  · cases h

theorem skipExponentPart_complete {exp : Bytes} (h : Exponent exp) (hr : Ends rest) :
    skipExponentPart (exp ++ rest) = .ok rest := by
  cases h with
  | none =>
    cases rest with
    | nil => rfl
    | cons b rest => rw [List.nil_append, skipExponentPart, hr.not_mark]; rfl
  | digits mark sign ds hmark hsign hds =>
    rw [List.cons_append, skipExponentPart, if_pos hmark, List.append_assoc]
    rcases hsign with rfl | rfl | rfl
    · obtain ⟨hne, hall⟩ := hds
      cases ds with
      | nil => exact absurd rfl hne
      | cons b ds =>
        have hb := hall b List.mem_cons_self
        rw [List.nil_append, List.cons_append, skipExponent, if_neg (not_sign_of_digit hb)]
        exact skipExponentDigits_complete ⟨hne, hall⟩ hr
    · exact skipExponentDigits_complete hds hr
    · exact skipExponentDigits_complete hds hr

theorem skipFraction_sound (h : skipFraction bs = .ok rest) :
    ∃ frac exp, bs = frac ++ (exp ++ rest) ∧ Fraction frac ∧ Exponent exp := by
  cases bs with
  | nil =>
    cases h
    exact ⟨[], [], rfl, .none, .none⟩
  | cons b bs =>
    rw [skipFraction] at h
    split at h
    · rename_i hb
      subst hb
      split at h
      · rename_i hd
        obtain ⟨ds, hbs, hds, hne, -⟩ := dropWhile_split isDigit bs
        obtain ⟨exp, hexp, he⟩ := skipExponentPart_sound h
        refine ⟨point :: ds, exp, ?_, .digits ds ⟨hne hd, hds⟩, he⟩
        rw [List.cons_append, ← hexp, ← hbs]
      · cases h
    · obtain ⟨exp, hexp, he⟩ := skipExponentPart_sound h
      exact ⟨[], exp, hexp, .none, he⟩

theorem Exponent.not_digit {exp : Bytes} (h : Exponent exp) (hr : Ends rest) : startsWith isDigit (exp ++ rest) = false := by
  cases h with
  | none => exact hr.not_digit
  | digits mark sign ds hmark hsign hds =>
    refine Bool.eq_false_iff.2 fun hd => ?_
    simp only [isExponentMark, Bool.or_eq_true, beq_iff_eq] at hmark
    rcases hmark with rfl | rfl <;> cases hd

/-- A fraction and an exponent begin with no digit, so the digits before them end there. -/
theorem Fraction.not_digit {frac : Bytes} (h : Fraction frac) (hr : startsWith isDigit rest = false) :
    startsWith isDigit (frac ++ rest) = false := by
  cases h with
  | none => exact hr
  | digits ds hds => rfl

theorem skipFraction_complete {frac exp : Bytes} (hf : Fraction frac) (he : Exponent exp) (hr : Ends rest) :
    skipFraction (frac ++ (exp ++ rest)) = .ok rest := by
  cases hf with
  | none =>
    rw [List.nil_append, ← skipExponentPart_complete he hr]
    cases he with
    | none =>
      cases rest with
      | nil => rfl
      | cons b rest => exact if_neg hr.not_point
    | digits mark sign ds hmark hsign hds =>
      have hpoint : mark ≠ point := by
        rintro rfl
        cases hmark
      exact if_neg hpoint
  | digits ds hds =>
    obtain ⟨hne, hall⟩ := hds
    cases ds with
    | nil => exact absurd rfl hne
    | cons d ds =>
      have hd : startsWith isDigit (d :: ds ++ (exp ++ rest)) = true := hall d List.mem_cons_self
      rw [List.cons_append, skipFraction, if_pos rfl, if_pos hd, dropWhile_append hall (he.not_digit hr)]
      exact skipExponentPart_complete he hr

theorem skipNumber_sound (h : skipNumber bs = .ok rest) : ∃ tok, bs = tok ++ rest ∧ Unsigned tok := by
  cases bs with
  | nil => cases h
  | cons b bs =>
    rw [skipNumber] at h
    split at h
    · rename_i hb
      subst hb
      split at h
      · cases h
      · obtain ⟨frac, exp, rfl, hf, he⟩ := skipFraction_sound h
        refine ⟨[0x30] ++ (frac ++ exp), ?_, .mk _ frac exp .zero hf he⟩
        rw [List.append_assoc, List.append_assoc]
        rfl
    · rename_i hz
      split at h
      · rename_i hd
        obtain ⟨ds, hbs, hds, -, -⟩ := dropWhile_split isDigit bs
        obtain ⟨frac, exp, hrest, hf, he⟩ := skipFraction_sound h
        refine ⟨(b :: ds) ++ (frac ++ exp), ?_, .mk _ frac exp (.positive b ds hd hz hds) hf he⟩
        rw [List.append_assoc, List.append_assoc, ← hrest, List.cons_append, ← hbs]
      · cases h

theorem skipNumber_complete {tok : Bytes} (h : Unsigned tok) (hr : Ends rest) : skipNumber (tok ++ rest) = .ok rest := by
  obtain ⟨int, frac, exp, hint, hf, he⟩ := h
  have hend : startsWith isDigit (frac ++ (exp ++ rest)) = false := hf.not_digit (he.not_digit hr)
  rw [List.append_assoc, List.append_assoc, ← skipFraction_complete hf he hr]
  cases hint with
  | zero =>
    rw [List.cons_append, List.nil_append, skipNumber, if_pos rfl, if_neg (Bool.eq_false_iff.1 hend)]
  | positive d ds hd hz hds =>
    rw [List.cons_append, skipNumber, if_neg hz, if_pos hd, dropWhile_append hds hend]

/-! ## Strings -/

/-- A string with two bytes of it there, or more. -/
theorem skipString_cons (b e : UInt8) (bs : Bytes) :
    skipString (b :: e :: bs) =
      if b = quoteByte then .ok (e :: bs)
      else if b = backslash then
        if e = letterU then
          match bs with
          | h₁ :: h₂ :: h₃ :: h₄ :: rest => if (hex4? h₁ h₂ h₃ h₄).isSome then skipString rest else .error .malformed
          | _ => .error .truncated
        else if (simpleEscape? e).isSome then skipString bs
        else .error .malformed
      else if b < 0x20 then .error .malformed
      else skipString (e :: bs) := by
  rw [skipString.eq_def]
  rfl

theorem skipString_quote (rest : Bytes) : skipString (quoteByte :: rest) = .ok rest := by
  cases rest with
  | nil => rfl
  | cons e rest => exact (skipString_cons quoteByte e rest).trans (if_pos rfl)

theorem skipString_byte {b : UInt8} (hq : b ≠ quoteByte) (hs : b ≠ backslash) (hc : ¬ b < 0x20) {bs : Bytes} (hne : bs ≠ []) :
    skipString (b :: bs) = skipString bs := by
  cases bs with
  | nil => exact absurd rfl hne
  | cons e bs => rw [skipString_cons, if_neg hq, if_neg hs, if_neg hc]

theorem skipString_escape {e : UInt8} (he : (simpleEscape? e).isSome = true) (hu : e ≠ letterU) (bs : Bytes) :
    skipString (backslash :: e :: bs) = skipString bs := by
  rw [skipString_cons, if_neg (by decide), if_pos rfl, if_neg hu, if_pos he]

theorem skipString_unicode {h₁ h₂ h₃ h₄ : UInt8} (h : (hex4? h₁ h₂ h₃ h₄).isSome = true) (bs : Bytes) :
    skipString (backslash :: letterU :: h₁ :: h₂ :: h₃ :: h₄ :: bs) = skipString bs := by
  rw [skipString_cons, if_neg (by decide), if_pos rfl, if_pos rfl]
  exact if_pos h

theorem skipString_sound (h : skipString bs = .ok rest) : ∃ body, bs = body ++ quoteByte :: rest ∧ StringBody body := by
  fun_induction skipString bs with
  | case1 => cases h
  | case2 =>
    cases h
    exact ⟨[], rfl, .nil⟩
  | case3 => cases h
  | case4 => cases h
  | case5 e bs =>
    cases h
    exact ⟨[], rfl, .nil⟩
  | case6 h₁ h₂ h₃ h₄ left hex _ ih =>
    obtain ⟨body, rfl, hbody⟩ := ih h
    obtain ⟨n, hn⟩ := Option.isSome_iff_exists.1 hex
    exact ⟨_, rfl, .unicode h₁ h₂ h₃ h₄ n body hn hbody⟩
  | case7 => cases h
  | case8 => cases h
  | case9 e bs _ hesc _ ih =>
    obtain ⟨body, rfl, hbody⟩ := ih h
    obtain ⟨c, hc⟩ := Option.isSome_iff_exists.1 hesc
    exact ⟨_, rfl, .escape e c body hc hbody⟩
  | case10 => cases h
  | case11 => cases h
  | case12 b e bs hq hs hc ih =>
    obtain ⟨body, hbody, hb⟩ := ih h
    exact ⟨b :: body, congrArg (b :: ·) hbody, .byte b body hq hs hc hb⟩

theorem skipString_complete {body : Bytes} (h : StringBody body) (rest : Bytes) :
    skipString (body ++ quoteByte :: rest) = .ok rest := by
  induction h with
  | nil => exact skipString_quote rest
  | byte b body hq hs hc hbody ih => exact (skipString_byte hq hs hc (by simp)).trans ih
  | escape e c body hesc hbody ih =>
    have hu : e ≠ letterU := by
      rintro rfl
      cases hesc
    exact (skipString_escape (by rw [hesc]; rfl) hu _).trans ih
  | unicode h₁ h₂ h₃ h₄ n body hn hbody ih => exact (skipString_unicode (by rw [hn]; rfl) _).trans ih

end CommitteeSync.Json
