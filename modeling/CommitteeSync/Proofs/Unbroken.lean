/-
  CommitteeSync.Proofs.Unbroken — a pass that nothing comes in the way of.

  When every reply is granted and the token stands, each write of an epoch goes through all
  its phases, if what the chain serves for the epoch is all of that epoch. So a pass by
  itself takes finitely many turns, completes, and commits each epoch of its range once, in
  ascending order (`lonePass_completes`).

  What a task comes to by granted turns is said of a turn that has just ended (`Leads`), so
  that it is put together from the parts of a task as the turns themselves are.
-/

import CommitteeSync.Proofs.Replay

namespace CommitteeSync

open Turn

variable (env : Setup)

/-! ## Turn after turn -/

/-- Further turns, each as `next` has it, lead from the one to the other. -/
inductive Leads {σ ρ : Type} (next : Shared → σ → Shared × Turn σ ρ) : Shared × Turn σ ρ → Shared × Turn σ ρ → Prop
  | stays (t : Shared × Turn σ ρ) : Leads next t t
  | turn (sh : Shared) (s : σ) (t : Shared × Turn σ ρ) : Leads next (next sh s) t → Leads next (sh, .waits s) t

namespace Leads

variable {σ ρ σ' ρ' : Type} {next : Shared → σ → Shared × Turn σ ρ} {t t' t'' : Shared × Turn σ ρ}

theorem trans (h : Leads next t t') (h' : Leads next t' t'') : Leads next t t'' := by
  induction h with
  | stays => exact h'
  | turn sh s _ _ ih => exact .turn sh s _ (ih h')

/-- A task goes on as its present part does, and then with what comes after that. -/
theorem andThen (next' : Shared → σ' → Shared × Turn σ' ρ') (wrap : σ → σ') (after : Shared → ρ → Shared × Turn σ' ρ')
    (hn : ∀ sh s, next' sh (wrap s) = Turn.andThen (next sh s) wrap after) (h : Leads next t t') :
    Leads next' (Turn.andThen t wrap after) (Turn.andThen t' wrap after) := by
  induction h with
  | stays => exact .stays _
  | turn sh s _ _ ih =>
    refine .turn sh (wrap s) _ ?_
    rw [hn]
    exact ih

end Leads

/-! ## The write of an epoch -/

namespace EpochWrite

/-- Granted turns lead on to the commit of the epoch. -/
def Lands (token : Token) (epoch : Epoch) (t : Shared × Turn EpochWrite Result) : Prop :=
  ∃ sh' tx n, Leads (fun sh w => w.resume env token epoch sh .granted) t (sh', .ends (.ok n)) ∧
    t.1.Writes sh' (some (epoch, tx))

variable {env} {token : Token} {epoch : Epoch} {sh : Shared}

/-- A granted turn that commits nothing may come first. -/
theorem Lands.turn {w : EpochWrite} (hw : commitOf (some (epoch, w)) .granted = none)
    (h : Lands env token epoch (w.resume env token epoch sh .granted)) : Lands env token epoch (sh, .waits w) := by
  obtain ⟨sh', tx, n, hl, hc⟩ := h
  have hfirst := resume_writes env token epoch sh w .granted
  rw [hw] at hfirst
  refine ⟨sh', tx, n, .turn sh w _ hl, ?_, hc.surroundings.trans hfirst.surroundings⟩
  rw [hc.ledger, hfirst.ledger, Ledger.after_none]

theorem committing_lands (tx : Transaction) (written : Nat) : Lands env token epoch (sh, .waits (.committing tx written)) :=
  ⟨_, tx, written, .turn sh _ _ (.stays _), finish_writes epoch sh tx written⟩

theorem recording_lands (ht : sh.isCancelled token = false) (tx : Transaction) (written : Nat) :
    Lands env token epoch (sh, .waits (.recording tx written)) := by
  refine .turn rfl ?_
  simp only [resume, ht, Bool.false_eq_true, if_false]
  exact committing_lands _ _

/-- Staging goes through what is left of the answer, all of it of the epoch. -/
theorem staging_lands (ht : sh.isCancelled token = false) (tx : Transaction) (written : Nat) {as : List Assignment}
    (has : ∀ a ∈ as, env.layout.epochOf a.slot = epoch) :
    Lands env token epoch (andThen (Staging.advance env epoch tx written sh as) .staging (record epoch)) := by
  induction as generalizing sh tx written with
  | nil =>
    have ht' : (sh.make (.set ⟨epoch⟩)).isCancelled token = false := ht
    exact recording_lands ht' tx written
  | cons a as ih =>
    rw [Staging.advance, if_pos (has a List.mem_cons_self)]
    refine .turn rfl ?_
    have ht' : (sh.make (.put a.slot a.index)).isCancelled token = false := ht
    simp only [resume, ht', Bool.false_eq_true, if_false]
    exact ih ht' _ _ fun b hb => has b (List.mem_cons_of_mem a hb)

/-- With all of the answer of the epoch, and the token standing, the write comes to its commit. -/
theorem beginning_lands (ht : sh.isCancelled token = false)
    (has : ∀ a ∈ sh.chain (env.layout.firstSlot epoch), env.layout.epochOf a.slot = epoch) :
    Lands env token epoch (sh, .waits .beginning) := by
  refine .turn rfl ?_
  simp only [resume, ht, Bool.false_eq_true, if_false, Staging.start]
  refine .turn rfl ?_
  have ht' : (sh.beginTx.make (.fetch (env.layout.firstSlot epoch))).isCancelled token = false := ht
  simp only [resume, ht', Bool.false_eq_true, if_false]
  exact staging_lands ht' _ _ has

end EpochWrite

/-! ## The pass -/

namespace Pass

variable {env} {token : Token}

/-- Entered with a standing token, a pass commits its next epoch. -/
theorem enter_leads (report : Report) {epoch : Epoch} {sh : Shared} (ht : sh.isCancelled token = false)
    (has : ∀ a ∈ sh.chain (env.layout.firstSlot epoch), env.layout.epochOf a.slot = epoch) :
    ∃ sh' n, Leads (fun sh p => p.resume env token sh .granted) (enter token report epoch sh)
        (settle token report epoch sh' (.ok n)) ∧
      sh'.surroundings = sh.surroundings ∧ sh'.commitLog = sh.commitLog ++ [epoch] := by
  have ht' : (sh.make .begin).isCancelled token = false := ht
  have has' : ∀ a ∈ (sh.make .begin).chain (env.layout.firstSlot epoch), env.layout.epochOf a.slot = epoch := has
  obtain ⟨sh', tx, n, hl, hw⟩ := EpochWrite.beginning_lands ht' has'
  refine ⟨sh', n, ?_, hw.surroundings, congrArg Ledger.log hw.ledger⟩
  simp only [enter, ht, Bool.false_eq_true, if_false]
  exact hl.andThen (fun sh p => Pass.resume env token sh p .granted) (fun write => ⟨report, epoch, write⟩)
    (settle token report epoch) fun _ _ => rfl

/-- It goes on until its target is committed. -/
theorem enter_completes {report : Report} {epoch : Epoch} {sh : Shared} (hc : report.isCompleted)
    (ht : sh.isCancelled token = false) (hle : epoch ≤ report.target)
    (has : ∀ e ∈ upTo epoch report.target, ∀ a ∈ sh.chain (env.layout.firstSlot e), env.layout.epochOf a.slot = e) :
    ∃ sh' report', Leads (fun sh p => p.resume env token sh .granted) (enter token report epoch sh) (sh', .ends report') ∧
      report'.isCompleted ∧ sh'.commitLog = sh.commitLog ++ upTo epoch report.target := by
  induction hn : report.target.toNat - epoch.toNat generalizing report epoch sh with
  | zero =>
    have heq : epoch = report.target := by
      rw [UInt64.le_iff_toNat_le] at hle
      exact UInt64.toNat_inj.1 (by omega)
    rw [← heq, upTo_self] at has ⊢
    obtain ⟨sh', n, hl, -, hlog⟩ := enter_leads report ht (has epoch (List.mem_singleton.2 rfl))
    rw [settle, if_pos heq] at hl
    exact ⟨_, _, hl, hc, (Shared.commitLog_log _ _).trans (by rw [hlog]; simp)⟩
  | succ n ih =>
    have hne : epoch ≠ report.target := by
      intro he
      rw [he, Nat.sub_self] at hn
      cases hn
    have hlt := UInt64.lt_of_le_of_ne hle hne
    have hlast := ne_lastWord_of_lt hlt
    have hnext : epoch + 1 ≤ report.target := by
      rw [UInt64.lt_iff_toNat_lt] at hlt
      rw [UInt64.le_iff_toNat_le, toNat_succ hlast]
      exact hlt
    rw [upTo_succ hlast hnext] at has ⊢
    obtain ⟨sh₁, written, hl, hs, hlog⟩ := enter_leads report ht (has epoch List.mem_cons_self)
    rw [settle, if_neg hne] at hl
    have hc₁ : Report.isCompleted { report with lastCommitted := some epoch, processed := report.processed + 1 } := hc
    have ht₁ : sh₁.isCancelled token = false :=
      (congrArg (fun s : Surroundings => s.tokens.isCancelled token) hs).trans ht
    have hchain : sh₁.chain = sh.chain := congrArg Surroundings.chain hs
    have hn₁ : report.target.toNat - (epoch + 1).toNat = n := by
      rw [toNat_succ hlast]
      omega
    obtain ⟨sh', report', hl', hc', hlog'⟩ := ih hc₁ ht₁ hnext
      (by rw [hchain]; exact fun e he => has e (List.mem_cons_of_mem _ he)) hn₁
    refine ⟨sh', report', hl.trans hl', hc', ?_⟩
    rw [hlog', hlog, List.append_assoc]
    rfl

/-- A pass over epochs of which the chain serves all completes. -/
theorem start_completes {resume target : Epoch} {sh : Shared} (ht : sh.isCancelled token = false)
    (has : ∀ e ∈ upTo resume target, ∀ a ∈ sh.chain (env.layout.firstSlot e), env.layout.epochOf a.slot = e) :
    ∃ sh' report, Leads (fun sh p => p.resume env token sh .granted) (start token resume target sh) (sh', .ends report) ∧
      report.isCompleted ∧ sh'.commitLog = sh.commitLog ++ upTo resume target := by
  by_cases hlt : target < resume
  · rw [start_empty token hlt, upTo_empty hlt]
    exact ⟨_, _, .stays _, rfl, (Shared.commitLog_log _ _).trans rfl⟩
  · rw [start, if_neg hlt]
    have hc₀ : (Report.empty resume target).isCompleted := rfl
    have ht₀ : ((sh.count .catchupRun).log (.passStarted resume target)).isCancelled token = false := ht
    obtain ⟨sh', report, hl, hc, hlog⟩ := enter_completes hc₀ ht₀ (UInt64.not_lt.1 hlt) has
    refine ⟨sh', report, hl, hc, hlog.trans ?_⟩
    rw [Shared.commitLog_of_ledger (Shared.ledger_log _ _ rfl)]
    rfl

end Pass

/-! ## Along a run -/

namespace System

/-- What granted turns lead a task to, it comes to in the run. -/
theorem run_leads {t t' : Shared × Turn Work Outcome} (h : Leads (fun sh w => w.resume env sh .granted) t t') {s : System}
    {id : Nat} (hsh : s.shared = t.1) (ht : s.tasks[id]? = some (taskOf t.2)) :
    ∃ n, (run env s (List.replicate n (.turn id .granted))).shared = t'.1 ∧
      (run env s (List.replicate n (.turn id .granted))).tasks[id]? = some (taskOf t'.2) := by
  induction h generalizing s with
  | stays => exact ⟨0, hsh, ht⟩
  | turn sh w _ _ ih =>
    have hw : s.work? id = some w := work?_eq_some.2 ht
    obtain ⟨n, hn⟩ := ih (s := act env s (.turn id .granted)) (by rw [shared_turn env _ hw, hsh])
      (by rw [task_turn env _ hw, hsh])
    exact ⟨n + 1, hn⟩

/-- A pass by itself, with `n` granted turns. -/
def lonePass (token : Token) (resume target : Epoch) (n : Nat) : List Action :=
  .request (.pass token resume target) :: List.replicate n (.turn 0 .granted)

theorem lonePass_only (token : Token) (resume target : Epoch) (n : Nat) :
    Only (fun k => k ≠ .stage) (lonePass token resume target n) := by
  intro r hr
  rcases List.mem_cons.1 hr with hr | hr
  · cases hr
    rfl
  · cases List.eq_of_mem_replicate hr

theorem lonePass_steady (token : Token) (resume target : Epoch) (n : Nat) : Steady (lonePass token resume target n) := by
  intro chain hm
  rcases List.mem_cons.1 hm with hm | hm
  · cases hm
  · cases List.eq_of_mem_replicate hm

/-- A pass by itself completes and commits each epoch of its range once, if the chain serves all of them. -/
theorem lonePass_completes {s₀ : System} (hs : s₀.Idle) {token : Token} (ht : s₀.shared.isCancelled token = false)
    {resume target : Epoch} (has : ∀ e ∈ upTo resume target, ∀ a ∈ s₀.shared.chain (env.layout.firstSlot e),
      env.layout.epochOf a.slot = e) :
    ∃ n report, (run env s₀ (lonePass token resume target n)).outcome? 0 = some (.pass report) ∧ report.isCompleted ∧
      (run env s₀ (lonePass token resume target n)).shared.commitLog = upTo resume target := by
  obtain ⟨sh', report, hl, hc, hlog⟩ := Pass.start_completes ht has
  have hwork : Leads (fun sh w => Work.resume env sh w .granted) (s₀.shared, .waits (.asked (.pass token resume target)))
      (sh', .ends (.pass report)) :=
    .turn _ _ _ (hl.andThen (fun sh w => Work.resume env sh w .granted) (.pass token) (Work.ending .pass) fun _ _ => rfl)
  have htask₀ : (s₀.request (.pass token resume target)).tasks[0]? = some (.active (.asked (.pass token resume target))) := by
    simp [request, hs.noTask]
  obtain ⟨n, hsh, htask⟩ := run_leads env hwork (rfl : (s₀.request (.pass token resume target)).shared = _) htask₀
  refine ⟨n, report, ?_, hc, ?_⟩
  · rw [outcome?, show run env s₀ (lonePass token resume target n) = run env (s₀.request _) (List.replicate n _) from rfl, htask]
    rfl
  · rw [show run env s₀ (lonePass token resume target n) = run env (s₀.request _) (List.replicate n _) from rfl, hsh, hlog,
      hs.log]
    rfl

end System

end CommitteeSync
