/-
  CommitteeSync.Proofs.EpochSlice — the committees of an epoch that is written again.

  A commit places committees one by one: what has a key that it names makes room for what it
  brings, and nothing is ever taken out. So the write of an epoch that had been committed
  before replaces what the response names, and the rest of the earlier commits stays.

  Proved:
  (1) A store whose committees are in the order of their keys keeps them so, whatever action
      comes next (`System.inKeyOrder_run`). So each slot and index is listed at most once.
  (2) When the write of an epoch by itself has ended well, in any interleaving, the committees
      of this epoch are the last ones of each slot and index in the response, and those under
      slots and indices that the response does not name which had been there before. Other
      epochs are as they were (`System.epoch_rewritten`).
  (3) So the epoch is just what was served if and only if the response names all that was
      there of the epoch. A response that names less leaves the rest of an earlier one behind
      (`System.left_from_before`).
-/

import CommitteeSync.Proofs.AllOrNothing
import CommitteeSync.Proofs.StoreReads

namespace CommitteeSync

open Turn

variable (env : Setup)

/-! ## Committees are only ever placed -/

/-- From `before` to `after` some committees were placed, if any. -/
def Places (before after : Store) : Prop :=
  ∃ cs : List Committee, after.entries = cs.foldl (fun es c => placeEntry c es) before.entries

theorem Places.of_eq {before after : Store} (h : after.entries = before.entries) : Places before after := ⟨[], h⟩

theorem Places.inKeyOrder {before after : Store} (h : Places before after) (ho : InKeyOrder before.committees) :
    InKeyOrder after.committees := by
  obtain ⟨cs, he⟩ := h
  rw [Store.committees, he, map_placeEntries]
  exact inKeyOrder_placeAll cs ho

theorem places_of_ledger {sh sh' : Shared} {commit? : Option (Epoch × Transaction)}
    (h : sh'.ledger = sh.ledger.after commit?) : Places sh.store sh'.store := by
  cases commit? with
  | none => exact .of_eq (congrArg Ledger.entries h)
  | some et => exact ⟨et.2.committees, congrArg Ledger.entries h⟩

namespace Work

/-- The turn that ends a request to stage may commit what was staged. -/
theorem endStage_places (ending : TxEnd) (sh : Shared) (r : Staging.Result) :
    Places sh.store (endStage ending sh r).1.store := by
  cases ending with
  | commit => exact ⟨r.1.committees, rfl⟩
  | cancel => exact .of_eq rfl
  | drop => exact .of_eq rfl

theorem resume_places (sh : Shared) (w : Work) (reply : Reply) : Places sh.store (w.resume env sh reply).1.store := by
  by_cases hk : w.kind = .stage
  · cases w with
    | asked r =>
      cases r with
      | stage epoch ending => exact .of_eq rfl
      | _ => cases hk
    | stage epoch ending s =>
      have hquiet := EpochWrite.staging_quiet env epoch sh s reply
      simp only [resume]
      rcases hr : s.resume env epoch sh reply with ⟨sh', s' | r⟩
      · rw [hr] at hquiet
        exact places_of_ledger hquiet.ledger
      · rw [hr] at hquiet
        cases hquiet
        exact endStage_places ending sh r
    | _ => cases hk
  · exact places_of_ledger (resume_ledger env sh w reply hk)

end Work

namespace System

variable {s : System}

theorem act_places (s : System) (a : Action) : Places s.shared.store (act env s a).shared.store := by
  cases a with
  | request r => exact .of_eq rfl
  | launch root =>
    simp only [act]
    split <;> exact .of_eq rfl
  | turn id reply =>
    cases hw : s.work? id with
    | none =>
      rw [turn_of_none env reply hw]
      exact .of_eq rfl
    | some w =>
      rw [shared_turn env reply hw]
      exact Work.resume_places env s.shared w reply
  | change c => exact .of_eq (congrArg Ledger.entries (change_ledger env c s.shared))

theorem inKeyOrder_run (h : InKeyOrder s.shared.store.committees) (acts : List Action) :
    InKeyOrder (run env s acts).shared.store.committees := by
  induction acts using List.reverseRecOn with
  | nil => exact h
  | append_singleton acts a ih =>
    rw [run_snoc]
    exact (act_places env _ a).inKeyOrder ih

end System

/-! ## The committees of one epoch -/

/-- The committed committees of one epoch, in order. -/
def Store.ofEpoch (s : Store) (layout : Layout) (epoch : Epoch) : List Committee :=
  s.committees.filter fun c => layout.epochOf c.slot = epoch

theorem Store.mem_ofEpoch {s : Store} {layout : Layout} {epoch : Epoch} {c : Committee} :
    c ∈ s.ofEpoch layout epoch ↔ c ∈ s.committees ∧ layout.epochOf c.slot = epoch := by
  rw [ofEpoch, List.mem_filter, decide_eq_true_iff]

/-- The last committee served under the key of `c` is `c`. -/
def LastServed (as : List Assignment) (c : Committee) : Prop :=
  (as.map Committee.ofAssignment).findRev? (fun d => d.key = c.key) = some c

instance (as : List Assignment) (c : Committee) : Decidable (LastServed as c) := inferInstanceAs (Decidable (_ = _))

/-- Something was served under this key. -/
def Named (as : List Assignment) (key : CommitteeKey) : Prop := ∃ a ∈ as, (Committee.ofAssignment a).key = key

theorem LastServed.named {as : List Assignment} {c : Committee} (h : LastServed as c) : Named as c.key := by
  obtain ⟨a, ha, hc⟩ := List.mem_map.1 (findRev?_mem h).1
  exact ⟨a, ha, congrArg Committee.key hc⟩

theorem findRev?_of_not_named {as : List Assignment} {key : CommitteeKey} (h : ¬ Named as key) :
    (as.map Committee.ofAssignment).findRev? (fun d => d.key = key) = none := by
  refine findRev?_key fun d hd hk => h ?_
  obtain ⟨a, ha, rfl⟩ := List.mem_map.1 hd
  exact ⟨a, ha, hk⟩

/-- What the write of `epoch` with the response `as` made of the committees that there were. -/
structure Rewrites (before after : Store) (epoch : Epoch) (as : List Assignment) : Prop where
  ofEpoch : ∀ a ∈ as, env.layout.epochOf a.slot = epoch
  /-- No slot and index is listed twice. -/
  ordered : InKeyOrder after.committees
  /-- Under the keys that were served is what was served last, under others what was there. -/
  listed : ∀ c, c ∈ after.ofEpoch env.layout epoch ↔
    LastServed as c ∨ (c ∈ before.ofEpoch env.layout epoch ∧ ¬ Named as c.key)
  /-- Nothing is left over just if all that was there was served anew. -/
  replaced : (∀ c, c ∈ after.ofEpoch env.layout epoch ↔ LastServed as c) ↔
    ∀ c ∈ before.ofEpoch env.layout epoch, Named as c.key
  otherEpochs : ∀ other, other ≠ epoch → ∀ c, c ∈ after.ofEpoch env.layout other ↔ c ∈ before.ofEpoch env.layout other

/-- A committee is listed after the commit if it was served last, or was there and was not served. -/
theorem CommitsEpoch.mem_committees {before after : Store} {epoch : Epoch} {as : List Assignment}
    (h : CommitsEpoch env before after epoch as) (hb : InKeyOrder before.committees) (ha : InKeyOrder after.committees)
    (c : Committee) : c ∈ after.committees ↔ LastServed as c ∨ (c ∈ before.committees ∧ ¬ Named as c.key) := by
  have hc := h.committee c.key
  rw [Store.committees, mem_iff_committeeAt ha, Store.committees, mem_iff_committeeAt hb]
  unfold Store.committee? at hc
  rw [hc]
  by_cases hn : Named as c.key
  · obtain ⟨a, hmem, hk⟩ := hn
    obtain ⟨d, hd⟩ := findRev?_exists (List.mem_map_of_mem (f := Committee.ofAssignment) hmem)
    rw [hk] at hd
    rw [LastServed, hd, Option.some_or]
    exact ⟨Or.inl, fun h => h.resolve_right fun h => h.2 ⟨a, hmem, hk⟩⟩
  · rw [LastServed, findRev?_of_not_named hn, Option.none_or]
    simp only [reduceCtorEq, false_or, hn, not_false_eq_true, and_true]

theorem CommitsEpoch.rewrites {before after : Store} {epoch : Epoch} {as : List Assignment}
    (h : CommitsEpoch env before after epoch as) (hb : InKeyOrder before.committees) (ha : InKeyOrder after.committees) :
    Rewrites env before after epoch as := by
  -- What is named is of this epoch.
  have hserved : ∀ {key : CommitteeKey}, Named as key → env.layout.epochOf key.1 = epoch := by
    rintro _ ⟨a, hmem, rfl⟩
    exact h.ofEpoch a hmem
  have hlisted : ∀ c, c ∈ after.ofEpoch env.layout epoch ↔
      LastServed as c ∨ (c ∈ before.ofEpoch env.layout epoch ∧ ¬ Named as c.key) := by
    intro c
    rw [Store.mem_ofEpoch, Store.mem_ofEpoch, h.mem_committees env hb ha]
    constructor
    · rintro ⟨hl | ⟨hc, hn⟩, he⟩
      · exact Or.inl hl
      · exact Or.inr ⟨⟨hc, he⟩, hn⟩
    · rintro (hl | ⟨⟨hc, he⟩, hn⟩)
      · exact ⟨Or.inl hl, hserved hl.named⟩
      · exact ⟨Or.inr ⟨hc, hn⟩, he⟩
  refine ⟨h.ofEpoch, ha, hlisted, ⟨fun hexact c hc => ?_, fun hall c => ?_⟩, fun other hne c => ?_⟩
  · by_contra hn
    exact hn ((hexact c).1 ((hlisted c).2 (Or.inr ⟨hc, hn⟩))).named
  · rw [hlisted]
    exact ⟨fun h => h.resolve_right fun h => h.2 (hall c h.1), Or.inl⟩
  · rw [Store.mem_ofEpoch, Store.mem_ofEpoch, h.mem_committees env hb ha]
    constructor
    · rintro ⟨hl | ⟨hc, hn⟩, he⟩
      · exact absurd (he.symm.trans (hserved hl.named)) hne
      · exact ⟨hc, he⟩
    · rintro ⟨hc, he⟩
      exact ⟨Or.inr ⟨hc, fun hn => hne (he.symm.trans (hserved hn))⟩, he⟩

/-! ## The write of an epoch -/

/-- A write that ended well had its fetch granted. -/
theorem Course.fetch_granted {token : Token} {epoch : Epoch} {as : List Assignment} {visits : List Visit} {n : Nat}
    (h : Course env token epoch as [none] visits (.ok n)) :
    ∃ v ∈ visits, v.call? = some (.fetch (env.layout.firstSlot epoch)) ∧ v.reply = .granted := by
  obtain ⟨hcalls, hclean, -, -⟩ := (h.ok_iff env n).1 rfl
  have hmem : some (Call.fetch (env.layout.firstSlot epoch)) ∈ visits.map Visit.call? := by
    rw [hcalls]
    simp [script]
  obtain ⟨v, hv, hcall⟩ := List.mem_map.1 hmem
  refine ⟨v, hv, hcall, ?_⟩
  have herror := hclean v hv
  cases hreply : v.reply with
  | granted => rfl
  | failed cause =>
    simp only [Visit.error?, hcall, hreply] at herror
    split at herror <;> cases herror

namespace System

variable {s : System}

/-- What the chain answered to a task when it fetched for `epoch`. -/
def FetchedBy (id : Nat) (s : System) (acts : List Action) (epoch : Epoch) (as : List Assignment) : Prop :=
  ∃ v ∈ visitsBy env id s acts, v.call? = some (.fetch (env.layout.firstSlot epoch)) ∧ v.reply = .granted ∧
    v.found.chain (env.layout.firstSlot epoch) = as

/-- The turn in which the write of an epoch by itself ends well replaces what the chain
    answered to it, and leaves the rest of the epoch as it found it. -/
theorem epoch_rewritten (h : InKeyOrder s.shared.store.committees) (token : Token) (epoch : Epoch)
    (part : List Action) (reply : Reply) (n : Nat) :
    let s₁ := s.request (.writeEpoch token epoch)
    let acts := part ++ [.turn s.tasks.length reply]
    (run env s₁ part).outcome? s.tasks.length = none →
    (run env s₁ acts).outcome? s.tasks.length = some (.epoch (.ok n)) →
    ∃ as, FetchedBy env s.tasks.length s₁ acts epoch as ∧ n = as.length ∧
      Rewrites env (run env s₁ part).shared.store (run env s₁ acts).shared.store epoch as := by
  dsimp only
  intro ho ho'
  have hwriting := writing_run env s token epoch
  obtain ⟨_, _, hr, hcourse⟩ := (hwriting (part ++ [.turn s.tasks.length reply])).outcome env ho'
  cases hr
  obtain ⟨v, hv, hcall, hgranted⟩ := hcourse.fetch_granted env
  have hsettles := (hwriting part).settles env ho reply
  rw [← run_snoc, visitsBy, ← along_snoc] at hsettles
  dsimp only at hsettles
  rw [ho'] at hsettles
  rcases hsettles with ⟨he, -⟩ | ⟨error, he, -⟩ | ⟨as, tx, n', he, hn, hanswered, -, hcommits⟩
  · cases he
  · cases he
  · cases he
    have hb := inKeyOrder_run env (s := s.request (.writeEpoch token epoch)) h
    exact ⟨as, ⟨v, hv, hcall, hgranted, hanswered v hv hcall⟩, hn, hcommits.rewrites env (hb part) (hb _)⟩

/-! ### Two responses -/

/-- The chain serves two committees of epoch 0, it is written, and then the chain serves one. -/
def servedLess : System :=
  run .plain (opened [] (fun _ => [⟨0, 0, [1]⟩, ⟨1, 0, [2]⟩]) [])
    (.request (.writeEpoch (.root 0) 0) :: List.replicate 7 (.turn 0 .granted) ++ [.change (.serve fun _ => [⟨0, 0, [3]⟩])])

/-- Of an epoch that is written again one committee is replaced and one is left. -/
theorem epoch_rewritten_with_less :
    let s₁ := servedLess.request (.writeEpoch (.root 0) 0)
    let part := List.replicate 5 (.turn 1 .granted)
    ∃ as, as.length = 1 ∧
      Rewrites .plain (run .plain s₁ part).shared.store (run .plain s₁ (part ++ [.turn 1 .granted])).shared.store 0 as := by
  have hempty : InKeyOrder (opened [] (fun _ => [⟨0, 0, [1]⟩, ⟨1, 0, [2]⟩]) []).shared.store.committees := List.Pairwise.nil
  have hordered : InKeyOrder servedLess.shared.store.committees := inKeyOrder_run .plain hempty _
  obtain ⟨as, -, hn, hrewrites⟩ :=
    epoch_rewritten .plain hordered (.root 0) 0 (List.replicate 5 (.turn 1 .granted)) .granted 1 rfl rfl
  exact ⟨as, hn.symm, hrewrites⟩

/-- The write ended well, and yet what is left is not what was served. -/
theorem left_from_before :
    let s := run .plain (servedLess.request (.writeEpoch (.root 0) 0)) (List.replicate 6 (.turn 1 .granted))
    s.outcome? 1 = some (.epoch (.ok 1)) ∧ FetchedBy .plain 1 (servedLess.request (.writeEpoch (.root 0) 0))
      (List.replicate 6 (.turn 1 .granted)) 0 [⟨0, 0, [3]⟩] ∧
    s.shared.store.ofEpoch Setup.plain.layout 0 = [⟨0, 0, [3]⟩, ⟨1, 0, [2]⟩] ∧ ¬ LastServed [⟨0, 0, [3]⟩] ⟨1, 0, [2]⟩ := by
  refine ⟨rfl, ?_, by decide +kernel, by decide⟩
  refine ⟨⟨some (.fetch 0), _, .granted⟩, List.mem_of_getElem? (i := 2) rfl, rfl, rfl, rfl⟩

end System

end CommitteeSync
