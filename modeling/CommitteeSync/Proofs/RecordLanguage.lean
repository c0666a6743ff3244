/-
  CommitteeSync.Proofs.RecordLanguage — the bytes that are read as a record.

  A record is written as an object, of whose members exactly one has a key that stands for the
  record's field, with the epoch as its value, or as an array of the epoch alone
  (`RecordObject`, `RecordArray`). The epoch is a plain run of digits; the other members may
  hold any values. Spaces may stand around it all.

  Proved: bytes are read as the record of epoch `n` if and only if they are such a text and `n`
  fits a word (`decode_iff`). So the reader refuses everything else: a second field, however its
  key is spelled, a missing one, and any other number.
-/

import CommitteeSync.Proofs.JsonText
import CommitteeSync.Proofs.SkippedValues
import CommitteeSync.Progress.Reader
import Mathlib.Algebra.Group.Nat.Defs

namespace CommitteeSync.Record

open Json

/-! ## The language -/

/-- A key as it is written, and what it stands for. -/
def Key (raw key : Bytes) : Prop := Unescapes raw key ∧ Utf8 key

/-- The members of an object as they are written; and of each what its key stands for, and its
    value. -/
inductive Fields : Bytes → List (Bytes × Bytes) → Prop
  | last (before raw key afterKey beforeValue value after : Bytes) : Space before → Key raw key → Space afterKey →
      Space beforeValue → Value value → Space after →
      Fields (memberBytes before raw afterKey beforeValue value after) [(key, value)]
  | more (before raw key afterKey beforeValue value after members : Bytes) (fields : List (Bytes × Bytes)) :
      Space before → Key raw key → Space afterKey → Space beforeValue → Value value → Space after → Fields members fields →
      Fields (memberBytes before raw afterKey beforeValue value after ++ comma :: members) ((key, value) :: fields)

/-- The members whose key is the name of the record's field. -/
def named (fields : List (Bytes × Bytes)) : List (Bytes × Bytes) := fields.filter (·.1 = asciiBytes fieldName)

/-- An object with the field once. -/
def RecordObject (n : Nat) (body : Bytes) : Prop :=
  ∃ members fields value, body = openBrace :: (members ++ [closeBrace]) ∧ Fields members fields ∧
    named fields = [(asciiBytes fieldName, value)] ∧ Json.Token n value

/-- An array of the value alone. -/
def RecordArray (n : Nat) (body : Bytes) : Prop :=
  ∃ before value after, body = openBracket :: (before ++ (value ++ (after ++ [closeBracket]))) ∧ Space before ∧ Space after ∧
    Json.Token n value

/-- A record of epoch `n` as it may be written. -/
def RecordText (n : Nat) (bs : Bytes) : Prop :=
  ∃ before body after, bs = before ++ (body ++ after) ∧ Space before ∧ Space after ∧ (RecordObject n body ∨ RecordArray n body)

variable {bs rest : Bytes} {n : Nat}

/-! ## One member -/

/-- What a member adds to what has been found: the field's value, once, or nothing. -/
inductive Adds (seen : Bool) (key value : Bytes) : Option Nat → Prop
  | field (n : Nat) : key = asciiBytes fieldName → seen = false → Json.Token n value → n ≤ wordLimit → Adds seen key value (some n)
  | other : key ≠ asciiBytes fieldName → Adds seen key value none

theorem value_of_token {tok : Bytes} (h : Json.Token n tok) : Value tok := by
  refine .number tok (.unsigned tok ?_)
  have hu := Unsigned.mk tok [] [] h.1 .none .none
  rwa [List.append_nil, List.append_nil] at hu

theorem readMember_sound {seen : Bool} {found : Option Nat} (h : readMember seen bs = .ok (found, rest)) :
    ∃ raw key afterKey beforeValue value,
      bs = raw ++ quoteByte :: (afterKey ++ colon :: (beforeValue ++ (value ++ rest))) ∧ Key raw key ∧ Space afterKey ∧
      Space beforeValue ∧ Value value ∧ Adds seen key value found := by
  rw [readMember] at h
  split at h
  · cases h
  · rename_i key left hkey
    obtain ⟨raw, rfl, hraw⟩ := readText_iff.1 hkey
    dsimp only at h
    split at h
    · cases h
    · rename_i hseen
      cases hc : skipSpace left with
      | nil => rw [hc] at h; cases h
      | cons c afterColon =>
        rw [hc] at h
        obtain ⟨afterKey, hak, rfl⟩ := skipSpace_eq hc
        dsimp only at h
        split at h
        · rename_i hcolon
          subst hcolon
          split at h
          · rename_i hfield
            have hnot : seen = false := by
              rw [decide_eq_true hfield, Bool.true_and] at hseen
              exact Bool.eq_false_iff.2 hseen
            cases hw : readWord afterColon with
            | error flaw => rw [hw] at h; cases h
            | ok nr =>
              rw [hw] at h
              obtain ⟨n, left⟩ := nr
              cases h
              obtain ⟨ws, tok, rfl, hws, htok, hl⟩ := readWord_sound hw
              exact ⟨raw, key, afterKey, ws, tok, rfl, hraw, hak, hws, value_of_token htok, .field n hfield hnot htok hl⟩
          · rename_i hfield
            cases hv : skipValue afterColon with
            | error flaw => rw [hv] at h; cases h
            | ok left =>
              rw [hv] at h
              cases h
              obtain ⟨ws, v, rfl, hws, hvalue⟩ := skipValue_sound hv
              exact ⟨raw, key, afterKey, ws, v, rfl, hraw, hak, hws, hvalue, .other hfield⟩
        · cases h

theorem readMember_complete {seen : Bool} {found : Option Nat} {raw key afterKey beforeValue value : Bytes} (hk : Key raw key)
    (hak : Space afterKey) (hbv : Space beforeValue) (hv : Value value) (ha : Adds seen key value found) (hr : Ends rest) :
    readMember seen (raw ++ quoteByte :: (afterKey ++ colon :: (beforeValue ++ (value ++ rest)))) = .ok (found, rest) := by
  rw [readMember, readText_iff.2 ⟨raw, rfl, hk⟩]
  cases ha with
  | field n hkey hseen htok hl =>
    simp only [hkey, hseen, decide_true, Bool.and_false, Bool.false_eq_true, if_false, if_true,
      skipSpace_before hak (show isSpace colon = false from rfl), readWord_complete hbv htok hl hr]
    rfl
  | other hkey =>
    simp only [hkey, decide_false, Bool.false_and, Bool.false_eq_true, if_false, if_true,
      skipSpace_before hak (show isSpace colon = false from rfl), skipValue_complete hbv hv hr]
    rfl

/-! ## All members -/

/-- With what has been found before, the members make `n`: it has been found and the field is
    not among them, or it has not and is among them once. -/
def Makes (found : Option Nat) (fields : List (Bytes × Bytes)) (n : Nat) : Prop :=
  match found with
  | some m => m = n ∧ named fields = []
  | none => ∃ value, named fields = [(asciiBytes fieldName, value)] ∧ Json.Token n value ∧ n ≤ wordLimit

/-- What the first member adds counts as found for the others. -/
theorem makes_cons {found : Option Nat} {key value : Bytes} {fields : List (Bytes × Bytes)} :
    Makes found ((key, value) :: fields) n ↔ ∃ added, Adds found.isSome key value added ∧ Makes (found.or added) fields n := by
  by_cases hkey : key = asciiBytes fieldName
  · have hnamed : named ((key, value) :: fields) = (key, value) :: named fields :=
      List.filter_cons_of_pos (decide_eq_true hkey)
    cases found with
    | some m =>
      rw [Makes, hnamed]
      refine ⟨fun h => absurd h.2 (List.cons_ne_nil _ _), fun ⟨added, hadds, h⟩ => ?_⟩
      cases hadds with
      | field k _ hseen => cases hseen
      | other hne => exact absurd hkey hne
    | none =>
      rw [Makes, hnamed]
      constructor
      · rintro ⟨v, hv, htok, hl⟩
        obtain ⟨hhead, hrest⟩ := List.cons.inj hv
        obtain ⟨-, rfl⟩ := Prod.mk.inj hhead
        exact ⟨some n, .field n hkey rfl htok hl, rfl, hrest⟩
      · rintro ⟨added, hadds, h⟩
        cases hadds with
        | field k _ _ htok hl =>
          obtain ⟨rfl, hrest⟩ := h
          exact ⟨value, by rw [hrest, hkey], htok, hl⟩
        | other hne => exact absurd hkey hne
  · have hnamed : named ((key, value) :: fields) = named fields :=
      List.filter_cons_of_neg (by simpa using hkey)
    have hsame : Makes found ((key, value) :: fields) n ↔ Makes found fields n := by
      unfold Makes
      rw [hnamed]
    rw [hsame]
    refine ⟨fun h => ⟨none, .other hkey, by rwa [Option.or_none]⟩, fun ⟨added, hadds, h⟩ => ?_⟩
    cases hadds with
    | field k hk => exact absurd hk hkey
    | other _ => rwa [Option.or_none] at h

theorem closeObject_iff {found : Option Nat} {left : Bytes} :
    closeObject found left = .ok (n, rest) ↔ Makes found [] n ∧ left = rest := by
  cases found with
  | none =>
    refine ⟨fun h => (by cases h), fun ⟨⟨value, hv, _⟩, _⟩ => ?_⟩
    exact absurd hv.symm (List.cons_ne_nil _ _)
  | some m =>
    constructor
    · intro h
      cases h
      exact ⟨⟨rfl, rfl⟩, rfl⟩
    · rintro ⟨⟨rfl, -⟩, rfl⟩
      rfl

theorem Fields.spaced {ws members : Bytes} {fields : List (Bytes × Bytes)} (hws : Space ws) (h : Fields members fields) :
    Fields (ws ++ members) fields := by
  cases h with
  | last before raw key afterKey beforeValue value after hb hk hak hbv hv ha =>
    rw [memberBytes_spaced]
    exact .last _ raw key afterKey beforeValue value after (hws.append hb) hk hak hbv hv ha
  | more before raw key afterKey beforeValue value after members fields hb hk hak hbv hv ha hf =>
    rw [← List.append_assoc, memberBytes_spaced]
    exact .more _ raw key afterKey beforeValue value after members fields (hws.append hb) hk hak hbv hv ha hf

theorem readMembersWithin_sound {fuel : Nat} {found : Option Nat} (h : readMembersWithin fuel found bs = .ok (n, rest)) :
    ∃ members fields, quoteByte :: bs = members ++ closeBrace :: rest ∧ Fields members fields ∧ Makes found fields n := by
  induction fuel generalizing found bs with
  | zero => cases h
  | succ fuel ih =>
    rw [readMembersWithin] at h
    split at h
    · cases h
    · rename_i added left hmember
      obtain ⟨raw, key, afterKey, beforeValue, value, rfl, hk, hak, hbv, hv, hadds⟩ := readMember_sound hmember
      dsimp only at h
      cases hb : skipSpace left with
      | nil => rw [hb] at h; cases h
      | cons b left =>
        rw [hb] at h
        obtain ⟨after, hafter, rfl⟩ := skipSpace_eq hb
        dsimp only at h
        split at h
        · rename_i hclose
          subst hclose
          obtain ⟨hmakes, rfl⟩ := closeObject_iff.1 h
          exact ⟨_, _, by simp [memberBytes],
            .last [] raw key afterKey beforeValue value after Space.nil hk hak hbv hv hafter,
            makes_cons.2 ⟨added, hadds, hmakes⟩⟩
        split at h
        · rename_i hcomma
          subst hcomma
          cases hq : skipSpace left with
          | nil => rw [hq] at h; cases h
          | cons q left =>
            rw [hq] at h
            obtain ⟨before, hbefore, rfl⟩ := skipSpace_eq hq
            dsimp only at h
            split at h
            · rename_i hquote
              subst hquote
              obtain ⟨members, fields, hmembers, hfields, hmakes⟩ := ih h
              exact ⟨_, _, by rw [hmembers]; simp [memberBytes],
                .more [] raw key afterKey beforeValue value after _ fields Space.nil hk hak hbv hv
                  hafter (hfields.spaced hbefore),
                makes_cons.2 ⟨added, hadds, hmakes⟩⟩
            · cases h
        · cases h

/-- From the quote of its first key an object is read to its end, with a step for each member. -/
theorem readMembersWithin_complete {members : Bytes} {fields : List (Bytes × Bytes)} (h : Fields members fields)
    {found : Option Nat} (hm : Makes found fields n) (rest : Bytes) :
    ∃ left, skipSpace (members ++ closeBrace :: rest) = quoteByte :: left ∧ fields.length ≤ left.length ∧
      ∀ fuel, fields.length ≤ fuel → readMembersWithin fuel found left = .ok (n, rest) := by
  induction h generalizing found with
  | last before raw key afterKey beforeValue value after hb hk hak hbv hv ha =>
    obtain ⟨added, hadds, hmakes⟩ := makes_cons.1 hm
    refine ⟨_, by rw [memberBytes_append, skipSpace_before hb rfl], ?_, fun fuel hf => ?_⟩
    · simp only [List.length_append, List.length_cons, List.length_nil]
      omega
    obtain ⟨fuel, rfl⟩ := Nat.exists_eq_add_one_of_ne_zero (Nat.ne_zero_of_lt hf)
    rw [readMembersWithin, readMember_complete hk hak hbv hv hadds (.before ha rfl _)]
    dsimp only
    rw [skipSpace_before ha rfl]
    exact closeObject_iff.2 ⟨hmakes, rfl⟩
  | more before raw key afterKey beforeValue value after members fields hb hk hak hbv hv ha hfields ih =>
    obtain ⟨added, hadds, hmakes⟩ := makes_cons.1 hm
    obtain ⟨left, hleft, hlen, hread⟩ := ih hmakes
    have hle : left.length < (members ++ closeBrace :: rest).length := by
      have hdrop := (List.dropWhile_suffix isSpace (l := members ++ closeBrace :: rest)).length_le
      rw [show List.dropWhile isSpace _ = _ from hleft] at hdrop
      exact hdrop
    refine ⟨_, by rw [List.append_assoc, memberBytes_append, skipSpace_before hb rfl], ?_, fun fuel hf => ?_⟩
    · simp only [List.length_append, List.length_cons] at hle ⊢
      omega
    · obtain ⟨fuel, rfl⟩ := Nat.exists_eq_add_one_of_ne_zero (Nat.ne_zero_of_lt hf)
      rw [List.cons_append, readMembersWithin, readMember_complete hk hak hbv hv hadds (.before ha rfl _)]
      dsimp only
      rw [skipSpace_before ha rfl]
      dsimp only
      rw [if_neg (by decide), if_pos rfl, hleft]
      dsimp only
      rw [if_pos rfl]
      exact hread fuel (Nat.le_of_succ_le_succ hf)

/-! ## The record -/

theorem readObject_iff : readObject bs = .ok (n, rest) ↔
    ∃ members fields, bs = members ++ closeBrace :: rest ∧ Fields members fields ∧ Makes none fields n := by
  rw [readObject]
  constructor
  · intro h
    cases hb : skipSpace bs with
    | nil => rw [hb] at h; cases h
    | cons b left =>
      rw [hb] at h
      obtain ⟨before, hbefore, rfl⟩ := skipSpace_eq hb
      dsimp only at h
      split at h
      · cases h
      split at h
      · rename_i hquote
        subst hquote
        obtain ⟨members, fields, hmembers, hfields, hmakes⟩ := readMembersWithin_sound h
        exact ⟨before ++ members, fields, by rw [hmembers, List.append_assoc], hfields.spaced hbefore, hmakes⟩
      · cases h
  · rintro ⟨members, fields, rfl, hfields, hmakes⟩
    obtain ⟨left, hleft, hlen, hread⟩ := readMembersWithin_complete hfields hmakes rest
    rw [hleft]
    dsimp only
    rw [if_neg (by decide), if_pos rfl]
    exact hread _ (Nat.le_succ_of_le hlen)

theorem readArray_iff : readArray bs = .ok (n, rest) ↔
    ∃ before value after, bs = before ++ (value ++ (after ++ closeBracket :: rest)) ∧ Space before ∧ Space after ∧
      Json.Token n value ∧ n ≤ wordLimit := by
  rw [readArray]
  constructor
  · intro h
    cases hb : skipSpace bs with
    | nil => rw [hb] at h; cases h
    | cons b left =>
      rw [hb] at h
      obtain ⟨before, hbefore, rfl⟩ := skipSpace_eq hb
      dsimp only at h
      split at h
      · cases h
      split at h
      · cases h
      · rename_i n' left' hword
        obtain ⟨ws, value, hleft, hws, htok, hl⟩ := readWord_sound hword
        cases hc : skipSpace left' with
        | nil => rw [hc] at h; cases h
        | cons c left =>
          rw [hc] at h
          obtain ⟨after, hafter, rfl⟩ := skipSpace_eq hc
          dsimp only at h
          split at h
          · rename_i hclose
            subst hclose
            cases h
            exact ⟨before ++ ws, value, after, by rw [hleft, List.append_assoc], hbefore.append hws, hafter, htok, hl⟩
          · cases h
  · rintro ⟨before, value, after, rfl, hb, ha, htok, hl⟩
    obtain ⟨d, ds, rfl, hd⟩ := htok.1.head
    have hword : readWord (d :: (ds ++ (after ++ closeBracket :: rest))) = .ok (n, after ++ closeBracket :: rest) :=
      readWord_complete Space.nil htok hl (.before ha rfl rest)
    rw [List.cons_append, skipSpace_before hb (isSpace_of_isDigit hd)]
    dsimp only
    rw [if_neg (ne_of_isDigit hd (by decide)), hword]
    dsimp only
    rw [skipSpace_before ha (by decide)]
    exact if_pos rfl

/-- The two written forms of a record, with what is left after it. -/
theorem readValue_iff : readValue bs = .ok (n, rest) ↔
    ∃ before body, bs = before ++ (body ++ rest) ∧ Space before ∧ (RecordObject n body ∨ RecordArray n body) ∧
      n ≤ wordLimit := by
  rw [readValue]
  constructor
  · intro h
    cases hb : skipSpace bs with
    | nil => rw [hb] at h; cases h
    | cons b left =>
      rw [hb] at h
      obtain ⟨before, hbefore, rfl⟩ := skipSpace_eq hb
      dsimp only at h
      split at h
      · rename_i hopen
        subst hopen
        obtain ⟨members, fields, rfl, hfields, value, hvalue, htok, hl⟩ := readObject_iff.1 h
        exact ⟨before, _, by simp, hbefore, Or.inl ⟨members, fields, value, rfl, hfields, hvalue, htok⟩, hl⟩
      split at h
      · rename_i hopen
        subst hopen
        obtain ⟨ws, value, after, rfl, hws, hafter, htok, hl⟩ := readArray_iff.1 h
        exact ⟨before, _, by simp, hbefore, Or.inr ⟨ws, value, after, rfl, hws, hafter, htok⟩, hl⟩
      · cases h
  · rintro ⟨before, body, rfl, hb, ⟨members, fields, value, rfl, hfields, hvalue, htok⟩ | ⟨ws, value, after, rfl, hws, ha, htok⟩, hl⟩
    · rw [List.cons_append, skipSpace_before hb (by decide)]
      dsimp only
      rw [if_pos rfl, List.append_assoc]
      exact readObject_iff.2 ⟨members, fields, rfl, hfields, value, hvalue, htok, hl⟩
    · rw [List.cons_append, skipSpace_before hb (by decide)]
      dsimp only
      rw [if_neg (by decide), if_pos rfl]
      exact readArray_iff.2 ⟨ws, value, after, by simp, hws, ha, htok, hl⟩

theorem skipSpace_isEmpty_iff : (skipSpace bs).isEmpty = true ↔ Space bs := by
  obtain ⟨ws, hbs, hws, -, hstop⟩ := dropWhile_split isSpace bs
  rw [List.isEmpty_iff]
  constructor
  · intro h
    rw [show List.dropWhile isSpace bs = [] from h, List.append_nil] at hbs
    rw [hbs]
    exact hws
  · intro h
    have hend : skipSpace (bs ++ []) = [] := skipSpace_append h rfl
    rwa [List.append_nil] at hend

theorem toNat_ofNat_of_le (h : n ≤ wordLimit) : (UInt64.ofNat n).toNat = n := by
  rw [UInt64.toNat_ofNat']
  exact Nat.mod_eq_of_lt (Nat.lt_succ_of_le h)

theorem text_of_read {r : Record} (h : read bs = .ok r) : RecordText r.latestEpoch.toNat bs := by
  rw [read] at h
  split at h
  · cases h
  · rename_i n left hvalue
    obtain ⟨before, body, rfl, hb, hbody, hl⟩ := readValue_iff.1 hvalue
    split at h
    · rename_i hend
      cases h
      rw [toNat_ofNat_of_le hl]
      exact ⟨before, body, left, rfl, hb, skipSpace_isEmpty_iff.1 hend, hbody⟩
    · cases h

theorem read_of_text (h : RecordText n bs) (hl : n ≤ wordLimit) : read bs = .ok ⟨UInt64.ofNat n⟩ := by
  obtain ⟨before, body, after, rfl, hb, ha, hbody⟩ := h
  rw [read, readValue_iff.2 ⟨before, body, rfl, hb, hbody, hl⟩]
  exact if_pos (skipSpace_isEmpty_iff.2 ha)

/-- Bytes are decoded as the record of epoch `n` exactly if they are written as one and `n` fits
    a word. -/
theorem decode_iff (bs : Bytes) (n : Nat) :
    (∃ r, decode (some bs) = .ok r ∧ r.latestEpoch.toNat = n) ↔ n ≤ 2 ^ 64 - 1 ∧ RecordText n bs := by
  constructor
  · rintro ⟨r, h, rfl⟩
    exact ⟨Nat.le_pred_of_lt r.latestEpoch.toNat_lt, text_of_read h⟩
  · rintro ⟨hl, h⟩
    exact ⟨⟨UInt64.ofNat n⟩, read_of_text h hl, toNat_ofNat_of_le hl⟩

end CommitteeSync.Record
