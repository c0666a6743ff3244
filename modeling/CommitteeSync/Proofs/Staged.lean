/-
  CommitteeSync.Proofs.Staged — what the transaction of an open write holds.

  A write goes through its phases in order and a task never jumps into the middle of one:
  after a turn its open write is new or the old one gone on (`Work.resume_goesOn`). So what
  a transaction holds is fixed by the phase: nothing before the answer to the fetch, then
  the committees put so far, all from that answer and all of the epoch, then the whole
  answer, then the record as well (`EpochWrite.Stages`, `EpochWrite.stages_resume`).

  Proved along every run: an open write is fresh, or its fetch was answered some time before
  and everything staged since is of that answer (`System.fresh_or_fetched`).
-/

import CommitteeSync.Proofs.AroundWrites

namespace CommitteeSync

open Turn

variable (env : Setup)

/-! ## How an open write goes on -/

/-- The open write after a turn that found `old` open. -/
inductive GoesOn (sh : Shared) (reply : Reply) (old : Option (Epoch × EpochWrite)) : Option (Epoch × EpochWrite) → Prop
  | closed : GoesOn sh reply old none
  | begins (epoch : Epoch) : GoesOn sh reply old (some (epoch, .beginning))
  | next (token : Token) (epoch : Epoch) (w w' : EpochWrite) (sh' : Shared) : old = some (epoch, w) →
      w.resume env token epoch sh reply = (sh', .waits w') → GoesOn sh reply old (some (epoch, w'))

variable {sh₀ : Shared} {reply : Reply} {old : Option (Epoch × EpochWrite)}

theorem GoesOn.of_opens {sh sh' : Shared} {token? : Option Token} {mayAsk : Bool} {open? : Option (Epoch × EpochWrite)}
    {wait : Wait} (h : sh.Opens env token? mayAsk sh' open? wait) : GoesOn env sh₀ reply old open? := by
  cases open? with
  | none => exact .closed
  | some ew =>
    obtain ⟨epoch, w⟩ := ew
    rw [h.fresh epoch w rfl]
    exact .begins epoch

namespace Work

theorem write?_of_stage {w : Work} (h : w.kind = .stage) : w.write? = none := by
  cases w with
  | asked r => rfl
  | stage epoch ending s => rfl
  | catchUp token c => cases h
  | range token r => cases h
  | head guard token u => cases h
  | writeEpoch token epoch w => cases h
  | pass token pass => cases h
  | listen token feed l => cases h
  | startup s => cases h
  | latestEpoch => cases h
  | readRecord => cases h
  | waitForFatal => cases h
  | stop s => cases h
  | runner root s => cases h
  | reporter r => cases h

/-- After a turn the open write of a task is new, or the one that was open, one phase on. -/
theorem resume_goesOn (w : Work) :
    Yields (w.resume env sh₀ reply) (fun _ w' => GoesOn env sh₀ reply w.write? w'.write?) (fun _ _ => True) := by
  by_cases hk : w.kind = .stage
  · refine (resume_kind env sh₀ w reply).mono (fun _ w' hk' => ?_) fun _ _ _ => trivial
    rw [write?_of_stage (hk'.trans hk)]
    exact .closed
  · cases hv : w.write? with
    | none => exact (resume_closed env sh₀ reply hk hv).mono (fun _ _ ho => .of_opens env ho) fun _ _ _ => trivial
    | some ew =>
      obtain ⟨epoch, v⟩ := ew
      obtain ⟨token, -, wrap, next, he, hw, hn⟩ := resume_open env sh₀ reply hv
      rw [he]
      rcases hr : v.resume env token epoch sh₀ reply with ⟨sh', v' | r⟩
      · show GoesOn env sh₀ reply _ (wrap v').write?
        rw [(hw v').1]
        exact .next token epoch v v' sh' rfl hr
      · exact (hn sh' r).mono (fun _ _ ho => .of_opens env ho) fun _ _ _ => trivial

end Work

/-! ## What the transaction holds -/

namespace EpochWrite

/-- The write has not fetched yet and its transaction, if it has one, is empty. -/
def Fresh : EpochWrite → Prop
  | .beginning => True
  | .staging (.fetching tx) => tx = Transaction.empty
  | _ => False

/-- The fetch was answered with `as`, and the transaction holds of it what has been put so
    far, all of it of the epoch, and at last the record. -/
def Stages (epoch : Epoch) (as : List Assignment) : EpochWrite → Prop
  | .beginning | .staging (.fetching _) => False
  | .staging (.putting tx _ next rest) =>
    ∃ done, as = done ++ next :: rest ∧ tx = ⟨[], done.map Committee.ofAssignment⟩ ∧
      ∀ a ∈ done ++ [next], env.layout.epochOf a.slot = epoch
  | .recording tx _ =>
    tx = ⟨[], as.map Committee.ofAssignment⟩ ∧ ∀ a ∈ as, env.layout.epochOf a.slot = epoch
  | .committing tx _ =>
    tx = ⟨[(env.metadataKey, Record.encode ⟨epoch⟩)], as.map Committee.ofAssignment⟩ ∧
      ∀ a ∈ as, env.layout.epochOf a.slot = epoch

variable {epoch : Epoch} {as : List Assignment}

/-- What is left of the answer is gone through with the part before it staged. -/
theorem stages_advance (done : List Assignment) {rest : List Assignment} (written : Nat) (sh : Shared) (has : as = done ++ rest)
    (hof : ∀ a ∈ done, env.layout.epochOf a.slot = epoch) :
    Yields (andThen (Staging.advance env epoch ⟨[], done.map Committee.ofAssignment⟩ written sh rest) .staging (record epoch))
      (fun _ w => w.Stages env epoch as) (fun _ _ => True) := by
  cases rest with
  | nil =>
    rw [List.append_nil] at has
    subst has
    exact ⟨rfl, hof⟩
  | cons a rest =>
    simp only [Staging.advance]
    split
    · rename_i ha
      refine ⟨done, has, rfl, fun b hb => ?_⟩
      rcases List.mem_append.1 hb with hb | hb
      · exact hof b hb
      · rw [List.mem_singleton.1 hb]; exact ha
    · trivial

theorem stages_resume (token : Token) (sh : Shared) (w : EpochWrite) (reply : Reply) (h : w.Stages env epoch as) :
    Yields (w.resume env token epoch sh reply) (fun _ w' => w'.Stages env epoch as) (fun _ _ => True) := by
  cases w with
  | beginning => exact h.elim
  | staging s =>
    cases s with
    | fetching tx => exact h.elim
    | putting tx written next rest =>
      obtain ⟨done, has, rfl, hof⟩ := h
      simp only [resume]
      split
      · trivial
      · cases reply with
        | failed cause => trivial
        | granted =>
          have hs := stages_advance env (done ++ [next]) (written + 1) sh
            (show as = (done ++ [next]) ++ rest by rw [has, List.append_assoc]; rfl) hof
          rw [List.map_append] at hs
          exact hs
  | recording tx written =>
    obtain ⟨rfl, hof⟩ := h
    simp only [resume]
    split
    · trivial
    · cases reply with
      | failed cause => trivial
      | granted => exact ⟨rfl, hof⟩
  | committing tx written => cases reply <;> trivial

/-- A fresh write stays fresh until its fetch is answered, and stages that answer from then on. -/
theorem fresh_resume (epoch : Epoch) (token : Token) (sh : Shared) (w : EpochWrite) (reply : Reply) (h : w.Fresh) :
    Yields (w.resume env token epoch sh reply)
      (fun _ w' => w'.Fresh ∨ w = .staging (.fetching Transaction.empty) ∧ reply = .granted ∧
        w'.Stages env epoch (sh.chain (env.layout.firstSlot epoch)))
      (fun _ _ => True) := by
  cases w with
  | beginning =>
    simp only [resume]
    split
    · trivial
    · cases reply with
      | failed cause => trivial
      | granted => exact Or.inl rfl
  | staging s =>
    cases s with
    | putting tx written next rest => exact h.elim
    | fetching tx =>
      cases h
      unfold resume
      dsimp only
      split
      · trivial
      · cases reply with
        | failed cause => trivial
        | granted =>
          refine (stages_advance env [] 0 sh rfl fun a ha => absurd ha List.not_mem_nil).mono ?_ fun _ _ h => h
          exact fun _ _ hw => Or.inr ⟨rfl, rfl, hw⟩
  | recording tx written => exact h.elim
  | committing tx written => exact h.elim

end EpochWrite

/-! ## Along a run -/

namespace System

/-- Where the open writes after an action come from. -/
inductive WriteCame (s : System) (a : Action) (id : Nat) (epoch : Epoch) (w' : EpochWrite) : Prop
  | begins : w' = .beginning → WriteCame s a id epoch w'
  | kept : (∀ reply, a ≠ .turn id reply) → s.write? id = some (epoch, w') → WriteCame s a id epoch w'
  | next (reply : Reply) (token : Token) (w : EpochWrite) (sh' : Shared) : a = .turn id reply →
      s.write? id = some (epoch, w) → w.resume env token epoch s.shared reply = (sh', .waits w') →
      WriteCame s a id epoch w'

theorem write?_eq_some {s : System} {id : Nat} {epoch : Epoch} {w : EpochWrite} :
    s.write? id = some (epoch, w) ↔ ∃ k, s.work? id = some k ∧ k.write? = some (epoch, w) := Option.bind_eq_some_iff

theorem write?_came {s : System} {a : Action} {id : Nat} {epoch : Epoch} {w' : EpochWrite}
    (h : (act env s a).write? id = some (epoch, w')) : WriteCame env s a id epoch w' := by
  obtain ⟨k', hk', hw'⟩ := write?_eq_some.1 h
  cases came env hk' with
  | kept ha hk => exact .kept ha (write?_eq_some.2 ⟨k', hk, hw'⟩)
  | asked r ha hk => subst hk; cases hw'
  | turn reply k ha hk hr =>
    have hg : Yields (k.resume env s.shared reply) (fun _ k' => GoesOn env s.shared reply k.write? k'.write?) _ :=
      Work.resume_goesOn env k
    rw [hr, yields_waits, hw'] at hg
    cases hg with
    | begins => exact .begins rfl
    | next token _ w _ sh' hold hres => exact .next reply token w sh' ha (write?_eq_some.2 ⟨k, hk, hold⟩) hres

/-- The fetch of the write of `epoch` that task `id` has open after `acts` was answered with
    `as` some time in the run, and what the write staged since then is of that answer. -/
def Fetched (s₀ : System) (acts : List Action) (id : Nat) (epoch : Epoch) (as : List Assignment) : Prop :=
  ∃ before since, acts = before ++ .turn id .granted :: since ∧
    (run env s₀ before).write? id = some (epoch, .staging (.fetching .empty)) ∧
    as = (run env s₀ before).shared.chain (env.layout.firstSlot epoch) ∧
    ∀ part, part <+: since →
      ∃ w, (run env s₀ (before ++ .turn id .granted :: part)).write? id = some (epoch, w) ∧ w.Stages env epoch as

variable {s₀ : System} {acts : List Action} {id : Nat} {epoch : Epoch} {as : List Assignment}

theorem Fetched.stages (h : Fetched env s₀ acts id epoch as) :
    ∃ w, (run env s₀ acts).write? id = some (epoch, w) ∧ w.Stages env epoch as := by
  obtain ⟨before, since, rfl, _, _, hall⟩ := h
  exact hall since (List.prefix_refl since)

theorem fetched_now {w : EpochWrite} (hf : (run env s₀ acts).write? id = some (epoch, .staging (.fetching .empty)))
    (hw : (run env s₀ (acts ++ [.turn id .granted])).write? id = some (epoch, w))
    (hs : w.Stages env epoch ((run env s₀ acts).shared.chain (env.layout.firstSlot epoch))) :
    Fetched env s₀ (acts ++ [.turn id .granted]) id epoch ((run env s₀ acts).shared.chain (env.layout.firstSlot epoch)) := by
  refine ⟨acts, [], rfl, hf, rfl, fun part hp => ?_⟩
  rw [List.prefix_nil.1 hp]
  exact ⟨w, hw, hs⟩

theorem Fetched.snoc {a : Action} {w : EpochWrite} (h : Fetched env s₀ acts id epoch as)
    (hw : (run env s₀ (acts ++ [a])).write? id = some (epoch, w)) (hs : w.Stages env epoch as) :
    Fetched env s₀ (acts ++ [a]) id epoch as := by
  obtain ⟨before, since, rfl, hf, has, hall⟩ := h
  refine ⟨before, since ++ [a], by simp, hf, has, fun part hp => ?_⟩
  rcases List.prefix_concat_iff.1 hp with rfl | hp
  · exact ⟨w, by simpa using hw, hs⟩
  · exact hall part hp

/-- In every reachable state every open write is fresh or stages one answer to its fetch. -/
theorem fresh_or_fetched (hs : s₀.Idle) {w : EpochWrite} (h : (run env s₀ acts).write? id = some (epoch, w)) :
    w.Fresh ∨ ∃ as, Fetched env s₀ acts id epoch as := by
  induction acts using List.reverseRecOn generalizing epoch w with
  | nil =>
    rw [run_nil, write?, hs.work?] at h
    cases h
  | append_singleton acts a ih =>
    have h' := h
    rw [run_snoc] at h
    cases write?_came env h with
    | begins hb => exact Or.inl (hb ▸ trivial)
    | kept _ hk =>
      rcases ih hk with hf | ⟨as, hf⟩
      · exact Or.inl hf
      · obtain ⟨v, hv, hst⟩ := hf.stages
        cases hk.symm.trans hv
        exact Or.inr ⟨as, hf.snoc env h' hst⟩
    | next reply token v sh' ha hv hr =>
      subst ha
      rcases ih hv with hf | ⟨as, hf⟩
      · have hy := EpochWrite.fresh_resume env epoch token (run env s₀ acts).shared v reply hf
        rw [hr] at hy
        rcases hy with hy | ⟨rfl, rfl, hst⟩
        · exact Or.inl hy
        · exact Or.inr ⟨_, fetched_now env hv h' hst⟩
      · obtain ⟨v', hv', hst⟩ := hf.stages
        cases hv.symm.trans hv'
        have hy := EpochWrite.stages_resume env token (run env s₀ acts).shared v reply hst
        rw [hr] at hy
        exact Or.inr ⟨as, hf.snoc env h' hy⟩

end System

end CommitteeSync
