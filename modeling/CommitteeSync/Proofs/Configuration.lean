/-
  CommitteeSync.Proofs.Configuration — which variables make a configuration, and which
  check is the first to fail.

  A variable is absent or says something: the start epoch and the seconds of the interval are
  numbers of 64 bits, the level is one of its written forms, each between any blanks, and the
  key is any text. `Values` is what the four of them say together, `Reads` when they say it in
  a way that passes every check, `FirstFault` the first check that does not pass otherwise.

  Proved, for every lookup (`lookup_decides`):
  (1) A configuration is read just if the variables pass every check, and it has the values
      that they say and defaults for the absent ones.
  (2) It is valid, its key is trimmed, and it is what the builder makes of these values, in
      whatever order they are set.
  (3) In all other cases the error is that of the first check that fails: the start epoch, the
      level and the interval as they are read, and only then an interval of zero and a blank
      key.

  Why the order of the calls does not count: each of them sets what the configuration has
  (`Conveys`), so at any time a field of the builder is not set yet or has its final value
  (`Builder.Keeps`).
-/

import CommitteeSync.Config.Lookup
import CommitteeSync.Proofs.WrittenForms

namespace CommitteeSync

theorem Span.isZero_iff (d : Span) : d.isZero = true ↔ d.toNanos = 0 := by
  simp only [isZero, toNanos, Bool.and_eq_true, beq_iff_eq, ← UInt64.toNat_inj, Fin.ext_iff, UInt64.toNat_zero,
    Fin.val_zero]
  omega

theorem Span.isZero_ofSeconds {n : Nat} (h : n < 2 ^ 64) : (ofSeconds (UInt64.ofNat n)).isZero = true ↔ n = 0 := by
  rw [isZero_iff]
  simp only [toNanos, ofSeconds, UInt64.toNat_ofNat', Fin.val_zero, Nat.mod_eq_of_lt h]
  omega

namespace Config

/-! ## Calls on the builder -/

theorem trim_defaultMetadataKey : Text.trim defaultMetadataKey = defaultMetadataKey := by
  decide +kernel

/-- A call sets what the configuration has. -/
def Setting.AgreesWith (c : Config) : Setting → Prop
  | .logLevel l => l = c.logLevel
  | .metricsInterval d => d = c.metricsInterval
  | .metadataKey key => Text.trim key = c.metadataKey
  | .startEpoch e => some e = c.startEpoch
  | .startEpochSentinel n => epochOfSentinel n = c.startEpoch

/-- Calls that set what the configuration has and leave out nothing but defaults. -/
structure Conveys (calls : List Setting) (c : Config) : Prop where
  agree : ∀ s ∈ calls, s.AgreesWith c
  logLevel : c.logLevel = .info ∨ ∃ l, .logLevel l ∈ calls
  metricsInterval : c.metricsInterval = defaultMetricsInterval ∨ ∃ d, .metricsInterval d ∈ calls
  metadataKey : c.metadataKey = defaultMetadataKey ∨ ∃ key, .metadataKey key ∈ calls
  startEpoch : c.startEpoch = none ∨ (∃ e, .startEpoch e ∈ calls) ∨ ∃ n, .startEpochSentinel n ∈ calls

/-- After calls that agree with the configuration: a field that one of them sets has its value. -/
structure Builder.Keeps (b : Builder) (calls : List Setting) (c : Config) : Prop where
  logLevel : b.logLevel = some c.logLevel ∨ b.logLevel = none ∧ ∀ l, .logLevel l ∉ calls
  metricsInterval : b.metricsInterval = some c.metricsInterval ∨
    b.metricsInterval = none ∧ ∀ d, .metricsInterval d ∉ calls
  metadataKey : b.metadataKey.map Text.trim = some c.metadataKey ∨
    b.metadataKey = none ∧ ∀ key, .metadataKey key ∉ calls
  startEpoch : b.startEpoch = c.startEpoch ∨
    b.startEpoch = none ∧ (∀ e, .startEpoch e ∉ calls) ∧ ∀ n, .startEpochSentinel n ∉ calls

theorem Builder.keeps_empty (c : Config) : Builder.empty.Keeps [] c := by
  refine ⟨Or.inr ⟨rfl, ?_⟩, Or.inr ⟨rfl, ?_⟩, Or.inr ⟨rfl, ?_⟩, Or.inr ⟨rfl, ?_, ?_⟩⟩ <;>
    exact fun _ => List.not_mem_nil

theorem Builder.Keeps.set {b : Builder} {calls : List Setting} {c : Config} (h : b.Keeps calls c) {s : Setting}
    (hs : s.AgreesWith c) : (b.set s).Keeps (calls ++ [s]) c := by
  obtain ⟨hlevel, hinterval, hkey, hstart⟩ := h
  -- The field that is set has its value from now on, the others are as they were.
  cases s with
  | logLevel l =>
    refine ⟨Or.inl (congrArg some hs), ?_, ?_, ?_⟩ <;>
      simpa only [Builder.set, List.mem_append, List.mem_singleton, reduceCtorEq, or_false]
  | metricsInterval d =>
    refine ⟨?_, Or.inl (congrArg some hs), ?_, ?_⟩ <;>
      simpa only [Builder.set, List.mem_append, List.mem_singleton, reduceCtorEq, or_false]
  | metadataKey key =>
    refine ⟨?_, ?_, Or.inl (congrArg some hs), ?_⟩ <;>
      simpa only [Builder.set, List.mem_append, List.mem_singleton, reduceCtorEq, or_false]
  | startEpoch e =>
    refine ⟨?_, ?_, ?_, Or.inl hs⟩ <;>
      simpa only [Builder.set, List.mem_append, List.mem_singleton, reduceCtorEq, or_false]
  | startEpochSentinel n =>
    refine ⟨?_, ?_, ?_, Or.inl hs⟩ <;>
      simpa only [Builder.set, List.mem_append, List.mem_singleton, reduceCtorEq, or_false]

theorem Builder.keeps_foldl {c : Config} (calls : List Setting) (h : ∀ s ∈ calls, s.AgreesWith c) :
    (calls.foldl Builder.set Builder.empty).Keeps calls c := by
  induction calls using List.reverseRecOn with
  | nil => exact Builder.keeps_empty c
  | append_singleton calls s ih =>
    rw [List.foldl_concat]
    exact (ih fun t ht => h t (List.mem_append_left _ ht)).set (h s (by simp))

/-- A field that no call sets gets its default. -/
theorem getD_of_kept {α : Type} {call : α → Setting} {calls : List Setting} {field : Option α} {value default : α}
    (h : field = some value ∨ field = none ∧ ∀ a, call a ∉ calls) (hcalls : value = default ∨ ∃ a, call a ∈ calls) :
    field.getD default = value := by
  rcases h with hset | ⟨hset, hnone⟩
  · rw [hset, Option.getD_some]
  · rcases hcalls with hdefault | ⟨a, ha⟩
    · rw [hset, hdefault, Option.getD_none]
    · exact absurd ha (hnone a)

theorem Builder.Keeps.build {b : Builder} {calls : List Setting} {c : Config} (h : b.Keeps calls c)
    (hcalls : Conveys calls c) : b.build = c.validate.map fun _ => c := by
  have hlevel : b.logLevel.getD .info = c.logLevel := getD_of_kept h.logLevel hcalls.logLevel
  have hinterval : b.metricsInterval.getD defaultMetricsInterval = c.metricsInterval :=
    getD_of_kept h.metricsInterval hcalls.metricsInterval
  have hkey : Text.trim (b.metadataKey.getD defaultMetadataKey) = c.metadataKey := by
    have hkept := h.metadataKey
    rw [← @Option.map_eq_none_iff _ _ _ Text.trim] at hkept
    rw [← Option.getD_map Text.trim, trim_defaultMetadataKey]
    exact getD_of_kept hkept hcalls.metadataKey
  have hstart : b.startEpoch = c.startEpoch := by
    rcases h.startEpoch with hset | ⟨hset, hnone, hnone'⟩
    · exact hset
    · rcases hcalls.startEpoch with hdefault | ⟨e, he⟩ | ⟨n, hn⟩
      · rw [hset, hdefault]
      · exact absurd he (hnone e)
      · exact absurd hn (hnone' n)
  have hc : (⟨c.logLevel, c.metricsInterval, c.metadataKey, c.startEpoch⟩ : Config) = c := rfl
  unfold Builder.build make
  dsimp only
  rw [hlevel, hinterval, hkey, hstart, hc]
  cases c.validate <;> rfl

theorem ofSettings_of_conveys {calls : List Setting} {c : Config} (h : Conveys calls c) :
    ofSettings calls = c.validate.map fun _ => c :=
  (Builder.keeps_foldl calls h.agree).build h

/-! ## What the variables say -/

/-- The text of a start epoch: a signed number of 64 bits between any blanks. -/
def EpochText (raw : String) (n : Int) : Prop :=
  Text.Signed (Text.trimChars raw.toList) n ∧ -2 ^ 63 ≤ n ∧ n < 2 ^ 63

/-- The text of a level: one of its written forms between any blanks. -/
def LevelText (raw : String) (l : Level) : Prop := Level.Written (Text.trimChars raw.toList) l

/-- The text of an interval: an unsigned number of 64 bits between any blanks. -/
def SecondsText (raw : String) (n : Nat) : Prop := Text.Unsigned (Text.trimChars raw.toList) n ∧ n < 2 ^ 64

/-- What is said by the variables that are present. -/
structure Values where
  startEpoch : Option Int
  logLevel : Option Level
  seconds : Option Nat
  metadataKey : Option String

/-- One call on the builder for each value. -/
def Values.calls (v : Values) : List Setting :=
  (v.startEpoch.map Setting.startEpochSentinel).toList ++ (v.logLevel.map Setting.logLevel).toList ++
    (v.seconds.map fun n => Setting.metricsInterval (Span.ofSeconds (UInt64.ofNat n))).toList ++
    (v.metadataKey.map Setting.metadataKey).toList

/-- The values, and defaults for those that are not there. -/
def Values.config (v : Values) : Config where
  logLevel := v.logLevel.getD .info
  metricsInterval := (v.seconds.map fun n => Span.ofSeconds (UInt64.ofNat n)).getD defaultMetricsInterval
  metadataKey := (v.metadataKey.map Text.trim).getD defaultMetadataKey
  startEpoch := v.startEpoch.bind epochOfSentinel

/-- Each variable is absent, or says the value and passes every check. -/
structure Reads (lookup : String → Option String) (v : Values) : Prop where
  startEpoch : Option.Rel EpochText (lookup startEpochVar) v.startEpoch
  logLevel : Option.Rel LevelText (lookup logLevelVar) v.logLevel
  seconds : Option.Rel SecondsText (lookup metricsIntervalVar) v.seconds
  notZero : v.seconds ≠ some 0
  metadataKey : v.metadataKey = lookup metadataKeyVar
  notBlank : ∀ key ∈ v.metadataKey, ∃ c ∈ key.toList, Text.isBlank c = false

/-- The first check that fails, all those before it having passed, with its error. -/
inductive FirstFault (lookup : String → Option String) : LookupError → Prop
  | startEpoch {raw cause} : lookup startEpochVar = some raw → (∀ n, ¬ EpochText raw n) →
      Text.readSigned (Text.trimChars raw.toList) = .error cause → FirstFault lookup (.startEpoch raw cause)
  | logLevel {n raw} : Option.Rel EpochText (lookup startEpochVar) n →
      lookup logLevelVar = some raw → (∀ l, ¬ LevelText raw l) → FirstFault lookup (.logLevel raw)
  | interval {n l raw cause} : Option.Rel EpochText (lookup startEpochVar) n →
      Option.Rel LevelText (lookup logLevelVar) l →
      lookup metricsIntervalVar = some raw → (∀ secs, ¬ SecondsText raw secs) →
      Text.readUnsigned (Text.trimChars raw.toList) = .error cause → FirstFault lookup (.metricsInterval raw cause)
  | zeroInterval {n l raw} : Option.Rel EpochText (lookup startEpochVar) n →
      Option.Rel LevelText (lookup logLevelVar) l →
      lookup metricsIntervalVar = some raw → SecondsText raw 0 → FirstFault lookup (.invalid .zeroMetricsInterval)
  | blankKey {n l secs raw} : Option.Rel EpochText (lookup startEpochVar) n →
      Option.Rel LevelText (lookup logLevelVar) l →
      Option.Rel SecondsText (lookup metricsIntervalVar) secs → secs ≠ some 0 →
      lookup metadataKeyVar = some raw → (∀ c ∈ raw.toList, Text.isBlank c = true) →
      FirstFault lookup (.invalid .emptyMetadataKey)

variable {lookup : String → Option String} {v : Values}

/-! ## Readers -/

theorem readStartEpoch_of_text (raw : String) (n : Int) (h : EpochText raw n) :
    readStartEpoch raw = .ok (.startEpochSentinel n) := by
  rw [readStartEpoch, Text.readSigned_iff.2 h]

theorem readLogLevel_of_text (raw : String) (l : Level) (h : LevelText raw l) :
    readLogLevel raw = .ok (.logLevel l) := by
  rw [readLogLevel, Level.read?_iff.2 h]

theorem readMetricsInterval_of_text (raw : String) (n : Nat) (h : SecondsText raw n) :
    readMetricsInterval raw = .ok (.metricsInterval (Span.ofSeconds (UInt64.ofNat n))) := by
  rw [readMetricsInterval, Text.readUnsigned_iff.2 h]

theorem readMetadataKey_of_eq (raw key : String) (h : raw = key) : readMetadataKey raw = .ok (.metadataKey key) := by
  rw [readMetadataKey, h]

theorem readLogLevel_of_no_text {raw : String} (h : ∀ l, ¬ LevelText raw l) :
    readLogLevel raw = .error (.logLevel raw) := by
  have hnone : Level.read? (Text.trimChars raw.toList) = none := by
    rw [Option.eq_none_iff_forall_ne_some]
    exact fun l hl => h l (Level.read?_iff.1 hl)
  rw [readLogLevel, hnone]

/-- A variable that is absent or says something is read, and the next one is looked up. -/
theorem readSettings_of_form {α : Type} {form : String → α → Prop} {call : α → Setting}
    {read : String → Except LookupError Setting} (hread : ∀ raw a, form raw a → read raw = .ok (call a))
    {var : String} {value : Option α} (h : Option.Rel form (lookup var) value)
    (rest : List (String × (String → Except LookupError Setting))) :
    readSettings lookup ((var, read) :: rest) =
      (readSettings lookup rest).map fun settings => (value.map call).toList ++ settings := by
  rw [readSettings]
  generalize lookup var = raw at h
  cases h with
  | none => cases readSettings lookup rest <;> rfl
  | some h =>
    dsimp only
    rw [hread _ _ h]
    cases readSettings lookup rest <;> rfl

theorem readSettings_of_fault {read : String → Except LookupError Setting} {var raw : String} {e : LookupError}
    (hraw : lookup var = some raw) (h : read raw = .error e)
    (rest : List (String × (String → Except LookupError Setting))) :
    readSettings lookup ((var, read) :: rest) = .error e := by
  rw [readSettings, hraw]
  dsimp only
  rw [h]

/-- Variables that are absent or say something give one call each. -/
theorem readSettings_of_forms (hstart : Option.Rel EpochText (lookup startEpochVar) v.startEpoch)
    (hlevel : Option.Rel LevelText (lookup logLevelVar) v.logLevel)
    (hsecs : Option.Rel SecondsText (lookup metricsIntervalVar) v.seconds)
    (hkey : v.metadataKey = lookup metadataKeyVar) : readSettings lookup readers = .ok v.calls := by
  have hkey' : Option.Rel Eq (lookup metadataKeyVar) v.metadataKey := by
    rw [← hkey]
    cases v.metadataKey with
    | none => exact .none
    | some key => exact .some rfl
  rw [readers, readSettings_of_form readStartEpoch_of_text hstart,
    readSettings_of_form readLogLevel_of_text hlevel,
    readSettings_of_form readMetricsInterval_of_text hsecs,
    readSettings_of_form readMetadataKey_of_eq hkey', readSettings]
  simp only [Except.map, Values.calls, List.append_nil, List.append_assoc]

/-! ## Values -/

theorem mem_calls_iff {s : Setting} :
    s ∈ v.calls ↔ (∃ n, v.startEpoch = some n ∧ .startEpochSentinel n = s) ∨
      (∃ l, v.logLevel = some l ∧ .logLevel l = s) ∨
      (∃ n, v.seconds = some n ∧ .metricsInterval (Span.ofSeconds (UInt64.ofNat n)) = s) ∨
      ∃ key, v.metadataKey = some key ∧ .metadataKey key = s := by
  simp only [Values.calls, List.mem_append, Option.mem_toList, Option.map_eq_some_iff, or_assoc]

theorem agreesWith_of_mem {s : Setting} (h : s ∈ v.calls) : s.AgreesWith v.config := by
  rcases mem_calls_iff.1 h with ⟨n, hn, rfl⟩ | ⟨l, hl, rfl⟩ | ⟨n, hn, rfl⟩ | ⟨key, hkey, rfl⟩
  · simp [Setting.AgreesWith, Values.config, hn]
  · simp [Setting.AgreesWith, Values.config, hl]
  · simp [Setting.AgreesWith, Values.config, hn]
  · simp [Setting.AgreesWith, Values.config, hkey]

theorem conveys_of_perm {calls : List Setting} (h : calls.Perm v.calls) : Conveys calls v.config := by
  refine ⟨fun s hs => agreesWith_of_mem (h.mem_iff.1 hs), ?_, ?_, ?_, ?_⟩
  · cases hl : v.logLevel with
    | none => left; simp [Values.config, hl]
    | some l => exact Or.inr ⟨l, h.mem_iff.2 (mem_calls_iff.2 (by simp [hl]))⟩
  · cases hn : v.seconds with
    | none => left; simp [Values.config, hn]
    | some n => exact Or.inr ⟨_, h.mem_iff.2 (mem_calls_iff.2 (Or.inr (Or.inr (Or.inl ⟨n, hn, rfl⟩))))⟩
  · cases hk : v.metadataKey with
    | none => left; simp [Values.config, hk]
    | some key => exact Or.inr ⟨key, h.mem_iff.2 (mem_calls_iff.2 (by simp [hk]))⟩
  · cases hn : v.startEpoch with
    | none => left; simp [Values.config, hn]
    | some n => exact Or.inr (Or.inr ⟨n, h.mem_iff.2 (mem_calls_iff.2 (by simp [hn]))⟩)

theorem trim_metadataKey (v : Values) : Text.trim v.config.metadataKey = v.config.metadataKey := by
  unfold Values.config
  cases v.metadataKey with
  | none => exact trim_defaultMetadataKey
  | some key => exact Text.trim_trim key

theorem isZero_config (h : Option.Rel SecondsText (lookup metricsIntervalVar) v.seconds) :
    v.config.metricsInterval.isZero = true ↔ v.seconds = some 0 := by
  unfold Values.config
  generalize v.seconds = secs at h ⊢
  generalize lookup metricsIntervalVar = raw at h
  cases h with
  | none => simp [defaultMetricsInterval, Span.isZero, Span.ofSeconds]
  | some h =>
    dsimp only [Option.map_some, Option.getD_some]
    rw [Span.isZero_ofSeconds h.2, Option.some_inj]

theorem isEmpty_config (v : Values) :
    (Text.trim v.config.metadataKey).isEmpty = true ↔
      ∃ key, v.metadataKey = some key ∧ ∀ c ∈ key.toList, Text.isBlank c = true := by
  rw [trim_metadataKey]
  unfold Values.config
  cases v.metadataKey with
  | none => simp [defaultMetadataKey]
  | some key => simp only [Option.map_some, Option.getD_some, Text.trim_isEmpty_iff, Option.some_inj, exists_eq_left']

theorem validate_config (h : Reads lookup v) : v.config.validate = .ok () := by
  have hd : v.config.metricsInterval.isZero ≠ true := by
    rw [Ne, isZero_config h.seconds]
    exact h.notZero
  have hkey : (Text.trim v.config.metadataKey).isEmpty ≠ true := by
    rw [Ne, isEmpty_config]
    rintro ⟨key, hkey, hblank⟩
    obtain ⟨c, hc, hc'⟩ := h.notBlank key hkey
    rw [hblank c hc] at hc'
    cases hc'
  rw [validate, if_neg hd, if_neg hkey]

/-! ## The lookup -/

/-- Once all variables are read, only the checks of a configuration are left. -/
theorem fromLookup_of_forms (hstart : Option.Rel EpochText (lookup startEpochVar) v.startEpoch)
    (hlevel : Option.Rel LevelText (lookup logLevelVar) v.logLevel)
    (hsecs : Option.Rel SecondsText (lookup metricsIntervalVar) v.seconds)
    (hkey : v.metadataKey = lookup metadataKeyVar) :
    fromLookup lookup = match v.config.validate with
      | .ok _ => .ok v.config
      | .error e => .error (.invalid e) := by
  rw [fromLookup, readSettings_of_forms hstart hlevel hsecs hkey]
  dsimp only
  rw [ofSettings_of_conveys (conveys_of_perm (.refl _))]
  cases v.config.validate <;> rfl

theorem fromLookup_of_reads (h : Reads lookup v) : fromLookup lookup = .ok v.config := by
  rw [fromLookup_of_forms h.startEpoch h.logLevel h.seconds h.metadataKey, validate_config h]

theorem fromLookup_of_fault {e : LookupError} (h : FirstFault lookup e) : fromLookup lookup = .error e := by
  cases h with
  | startEpoch hraw _ hcause =>
    rw [fromLookup, readers, readSettings_of_fault hraw (by rw [readStartEpoch, hcause])]
  | logLevel hstart hraw hnone =>
    rw [fromLookup, readers, readSettings_of_form readStartEpoch_of_text hstart,
      readSettings_of_fault hraw (readLogLevel_of_no_text hnone)]
    rfl
  | interval hstart hlevel hraw _ hcause =>
    rw [fromLookup, readers, readSettings_of_form readStartEpoch_of_text hstart,
      readSettings_of_form readLogLevel_of_text hlevel,
      readSettings_of_fault hraw (by rw [readMetricsInterval, hcause])]
    rfl
  | @zeroInterval n l raw hstart hlevel hraw hzero =>
    have hsecs : Option.Rel SecondsText (lookup metricsIntervalVar) (some 0) := by
      rw [hraw]
      exact .some hzero
    have hread := @fromLookup_of_forms lookup ⟨n, l, some 0, lookup metadataKeyVar⟩ hstart hlevel hsecs rfl
    rw [hread, validate, if_pos ((isZero_config hsecs).2 rfl)]
  | @blankKey n l secs raw hstart hlevel hsecs hnot hraw hblank =>
    have hread := @fromLookup_of_forms lookup ⟨n, l, secs, lookup metadataKeyVar⟩ hstart hlevel hsecs rfl
    have hd : (Values.config ⟨n, l, secs, lookup metadataKeyVar⟩).metricsInterval.isZero ≠ true := by
      rw [Ne, isZero_config hsecs]
      exact hnot
    rw [hread, validate, if_neg hd, if_pos ((isEmpty_config _).2 ⟨raw, hraw, hblank⟩)]

theorem form_or (form : String → α → Prop) (raw : Option String) :
    (∃ value, Option.Rel form raw value) ∨ ∃ text, raw = some text ∧ ∀ a, ¬ form text a := by
  cases raw with
  | none => exact Or.inl ⟨none, .none⟩
  | some text =>
    by_cases h : ∃ a, form text a
    · obtain ⟨a, ha⟩ := h
      exact Or.inl ⟨some a, .some ha⟩
    · exact Or.inr ⟨text, rfl, not_exists.1 h⟩

/-- The checks one after another: each fails first, or the next one is made, until all have passed. -/
theorem reads_or_fault (lookup : String → Option String) :
    (∃ v, Reads lookup v) ∨ ∃ e, FirstFault lookup e := by
  obtain ⟨n, hstart⟩ | ⟨raw, hraw, hnone⟩ := form_or EpochText (lookup startEpochVar)
  swap
  · cases hcause : Text.readSigned (Text.trimChars raw.toList) with
    | ok n => exact absurd (Text.readSigned_iff.1 hcause) (hnone n)
    | error cause => exact Or.inr ⟨_, .startEpoch hraw hnone hcause⟩
  obtain ⟨l, hlevel⟩ | ⟨raw, hraw, hnone⟩ := form_or LevelText (lookup logLevelVar)
  swap
  · exact Or.inr ⟨_, .logLevel hstart hraw hnone⟩
  obtain ⟨secs, hsecs⟩ | ⟨raw, hraw, hnone⟩ := form_or SecondsText (lookup metricsIntervalVar)
  swap
  · cases hcause : Text.readUnsigned (Text.trimChars raw.toList) with
    | ok secs => exact absurd (Text.readUnsigned_iff.1 hcause) (hnone secs)
    | error cause => exact Or.inr ⟨_, .interval hstart hlevel hraw hnone hcause⟩
  by_cases hzero : secs = some 0
  · subst hzero
    generalize hraw : lookup metricsIntervalVar = raw at hsecs
    cases hsecs with
    | some h => exact Or.inr ⟨_, .zeroInterval hstart hlevel hraw h⟩
  by_cases hblank : ∃ key, lookup metadataKeyVar = some key ∧ ∀ c ∈ key.toList, Text.isBlank c = true
  · obtain ⟨key, hraw, hblank⟩ := hblank
    exact Or.inr ⟨_, .blankKey hstart hlevel hsecs hzero hraw hblank⟩
  · push Not at hblank
    refine Or.inl ⟨⟨n, l, secs, lookup metadataKeyVar⟩, hstart, hlevel, hsecs, hzero, rfl, fun key hkey => ?_⟩
    obtain ⟨c, hc, hother⟩ := hblank key hkey
    exact ⟨c, hc, Bool.eq_false_iff.2 hother⟩

/-- What is sure of the configuration of these values. -/
structure Settled (v : Values) : Prop where
  valid : v.config.validate = .ok ()
  trimmed : Text.trim v.config.metadataKey = v.config.metadataKey
  /-- The builder makes it of the values in any order, -/
  anyOrder : ∀ calls, calls.Perm v.calls → ofSettings calls = .ok v.config
  /-- and of calls that repeat them, set the start epoch directly, or set a default. -/
  anyCalls : ∀ calls, Conveys calls v.config → ofSettings calls = .ok v.config

theorem settled_of_reads (h : Reads lookup v) : Settled v := by
  have hbuild : ∀ calls, Conveys calls v.config → ofSettings calls = .ok v.config := by
    intro calls hcalls
    rw [ofSettings_of_conveys hcalls, validate_config h]
    rfl
  exact ⟨validate_config h, trim_metadataKey v, fun calls hcalls => hbuild calls (conveys_of_perm hcalls), hbuild⟩

/-- A lookup is read just if its variables pass every check, and what is read is settled by their
    values; else the first check that fails decides. -/
theorem lookup_decides (lookup : String → Option String) :
    (∀ config, fromLookup lookup = .ok config ↔ ∃ v, Reads lookup v ∧ v.config = config) ∧
    (∀ v, Reads lookup v → Settled v) ∧
    ∀ e, fromLookup lookup = .error e ↔ FirstFault lookup e := by
  refine ⟨fun config => ⟨fun h => ?_, ?_⟩, fun v => settled_of_reads, fun e => ⟨fun h => ?_, fromLookup_of_fault⟩⟩
  · rcases reads_or_fault lookup with ⟨v, hv⟩ | ⟨e, he⟩
    · rw [fromLookup_of_reads hv] at h
      cases h
      exact ⟨v, hv, rfl⟩
    · rw [fromLookup_of_fault he] at h
      cases h
  · rintro ⟨v, hv, rfl⟩
    exact fromLookup_of_reads hv
  · rcases reads_or_fault lookup with ⟨v, hv⟩ | ⟨e', he⟩
    · rw [fromLookup_of_reads hv] at h
      cases h
    · rw [fromLookup_of_fault he] at h
      cases h
      exact he

/-- Signs, leading zeros, mixed cases and blanks. -/
theorem lookup_decides_spelled :
    let lookup := fun name => [(startEpochVar, " +007 "), (logLevelVar, "DeBuG"), (metricsIntervalVar, "30"),
      (metadataKeyVar, "\tcommittees ")].lookup name
    Reads lookup ⟨some 7, some .debug, some 30, some "\tcommittees "⟩ ∧
    fromLookup lookup = .ok ⟨.debug, Span.ofSeconds 30, "committees", some 7⟩ := by
  intro lookup
  have hreads : Reads lookup ⟨some 7, some .debug, some 30, some "\tcommittees "⟩ := by
    have hstart : lookup startEpochVar = some " +007 " := by decide +kernel
    have hlevel : lookup logLevelVar = some "DeBuG" := by decide +kernel
    have hsecs : lookup metricsIntervalVar = some "30" := by decide +kernel
    have hkey : lookup metadataKeyVar = some "\tcommittees " := by decide +kernel
    refine ⟨?_, ?_, ?_, by decide, hkey.symm, ?_⟩
    · rw [hstart]
      exact .some ⟨.plus ⟨by decide, List.all_eq_true.1 (by decide), by decide⟩, by decide, by decide⟩
    · rw [hlevel]
      exact .some (.name (by decide))
    · rw [hsecs]
      exact .some ⟨.plain ⟨by decide, List.all_eq_true.1 (by decide), by decide⟩, by decide⟩
    · rintro _ ⟨⟩
      exact ⟨'c', by decide, by decide⟩
  refine ⟨hreads, ?_⟩
  exact ((lookup_decides lookup).1 _).2 ⟨_, hreads, by decide +kernel⟩

/-- Of several faults the one of the earlier check is the answer. -/
example : fromLookup (fun name => [(metadataKeyVar, " "), (metricsIntervalVar, "0"), (startEpochVar, "-1")].lookup name) =
    .error (.invalid .zeroMetricsInterval) := by decide +kernel

end Config

end CommitteeSync
