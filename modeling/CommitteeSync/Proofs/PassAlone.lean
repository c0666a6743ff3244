/-
  CommitteeSync.Proofs.PassAlone — what a pass does by itself.

  Proved for any beats (`pass_covers`): with no other task about, the epochs committed since
  a pass set out are the first ones of its range, in order and each once, and its report
  counts them. Every fetch, put and record is for an epoch of the range. It has committed the
  whole range if and only if it completed.
-/

import CommitteeSync.Proofs.AbortIsolation
import CommitteeSync.Proofs.Driven

namespace CommitteeSync

open Turn

variable (env : Setup)

/-! ## Runs of one task -/

namespace System

variable {s : System} {id : Nat} {acts : List Action}

/-- Changes, and turns of task `id`. -/
def Own (id : Nat) (acts : List Action) : Prop := ∀ a ∈ acts, (∃ reply, a = .turn id reply) ∨ ∃ c, a = .change c

theorem own_beats (id : Nat) (beats : List Beat) : Own id (beats.flatMap (Beat.acts id)) := by
  intro a ha
  obtain ⟨b, -, ha⟩ := List.mem_flatMap.1 ha
  rcases List.mem_append.1 ha with ha | ha
  · obtain ⟨c, -, rfl⟩ := List.mem_map.1 ha
    exact Or.inr ⟨c, rfl⟩
  · rw [List.mem_singleton.1 ha]
    exact Or.inl ⟨b.reply, rfl⟩

theorem Own.sole (h : Own id acts) : Sole env id s acts := by
  intro part a hp hne
  rcases h a (hp.subset (List.mem_append_right _ List.mem_cons_self)) with ⟨reply, rfl⟩ | ⟨c, rfl⟩
  · exact absurd rfl (hne reply)
  · rw [run_snoc]
    exact change_ledger env c _

/-- All calls are then those of the task. -/
theorem calls_own (hid : id < s.tasks.length) (hk : ∀ w, s.work? id = some w → w.kind ≠ .stage) (h : Own id acts) :
    (run env s acts).shared.calls = s.shared.calls ++ callsBy env id s acts := by
  induction acts using List.reverseRecOn with
  | nil => exact (List.append_nil _).symm
  | append_singleton acts a ih =>
    have hacts : Own id acts := fun b hb => h b (List.mem_append_left _ hb)
    rw [callsBy, along_snoc, ← callsBy, ← List.append_assoc, ← ih hacts, run_snoc]
    rcases h a (List.mem_append_right _ List.mem_cons_self) with ⟨reply, rfl⟩ | ⟨c, rfl⟩
    · cases hw : (run env s acts).work? id with
      | none => rw [callsOf_none env hw, turn_of_none env reply hw, List.append_nil]
      | some w =>
        obtain ⟨w₀, hw₀, hkind⟩ := kind_since env hid hw
        have hstage : w.kind ≠ .stage := by
          rw [hkind]
          exact hk w₀ hw₀
        rw [callsOf_turn env hw hstage, calls_turn env hw hstage]
    · have hsame := congrArg Account.calls (change_account env c (run env s acts).shared)
      rw [Shared.calls_account, Shared.calls_account] at hsame
      have hnone : callsOf env id (run env s acts) (.change c) = [] := rfl
      rw [hnone, List.append_nil]
      exact hsame

end System

/-! ## One pass -/

/-- From `sh` to `sh'` the epochs `done` were committed, in this order and no others. They are
    the first ones from `resume` up to `target`, and no call was for an epoch beyond these. -/
structure Shared.Covers (sh sh' : Shared) (resume target : Epoch) (done : List Epoch) : Prop where
  log : sh'.commitLog = sh.commitLog ++ done
  within : done <+: upTo resume target
  calls : ∃ calls, sh'.calls = sh.calls ++ calls ∧
    calls.filterMap Call.fetched? <+: (upTo resume target).map env.layout.firstSlot ∧
    ∀ call ∈ calls, ∀ e ∈ call.staged? env, resume ≤ e ∧ e ≤ target

namespace EpochWrite.Underway

variable {env} {token : Token} {epoch : Epoch} {as : List Assignment} {now : List Visit} {w : EpochWrite}

/-- The visits of a write that waits, and what it waits for, are its calls. -/
theorem calls_visited (h : w.Underway env token epoch as [] now) :
    now.filterMap Visit.call? ++ (w.waitsFor env token epoch).call?.toList = w.calls env epoch as := by
  have hcalls := congrArg (List.filterMap id) h.calls
  rw [List.nil_append, List.filterMap_append, List.filterMap_map, List.filterMap_map] at hcalls
  have hlast : ∀ call? : Option Call, [call?].filterMap id = call?.toList := by
    intro call?
    cases call? <;> rfl
  rw [hlast] at hcalls
  exact hcalls.trans List.filterMap_some

/-- All of them are for its own epoch. -/
theorem staged (h : w.Underway env token epoch as [] now) {call : Call} (hc : call ∈ w.calls env epoch as) {e : Epoch}
    (he : call.staged? env = some e) : e = epoch := by
  cases call with
  | set record =>
    cases he
    rw [set_script env ((w.calls_prefix env).subset hc)]
  | put slot index =>
    cases he
    rw [← h.calls_visited] at hc
    rcases List.mem_append.1 hc with hc | hc
    · obtain ⟨v, hv, hcall⟩ := List.mem_filterMap.1 hc
      exact h.puts v hv slot index hcall
    · -- It is being put right now.
      cases w with
      | staging s =>
        cases s with
        | putting tx written next rest =>
          obtain ⟨done, -, -, hof⟩ := h.answer.resolve_left nofun
          rw [Option.mem_toList] at hc
          cases hc
          exact hof next (List.mem_append_right _ List.mem_cons_self)
        | fetching tx => cases Option.mem_toList.1 hc
      | _ => cases Option.mem_toList.1 hc
  | _ => cases he

end EpochWrite.Underway

theorem EpochWrite.calls_fetched (w : EpochWrite) (epoch : Epoch) (as : List Assignment) :
    (w.calls env epoch as).filterMap Call.fetched? <+: [env.layout.firstSlot epoch] := by
  rw [← fetched_script env epoch as]
  exact (w.calls_prefix env).filterMap _

/-- The request for a pass and its first turn, and then the beats. -/
theorem System.run_pass (token : Token) (resume target : Epoch) (sh : Shared) (beats : List Beat) :
    System.run env (System.request ⟨sh, []⟩ (.pass token resume target))
        (.turn 0 .granted :: beats.flatMap (Beat.acts 0)) =
      System.alone (andThen (drive env (Pass.resume env token) (Pass.start token resume target sh) beats) (.pass token)
        (Work.ending .pass)) := by
  have hw : (System.request ⟨sh, []⟩ (.pass token resume target)).work? 0 = some (.asked (.pass token resume target)) := rfl
  have hnone := launched_of_kind (Work.resume_effects env (System.request ⟨sh, []⟩ (.pass token resume target)).shared
    (.asked (.pass token resume target)) .granted) (nofun : Kind.pass ≠ .aside)
  rw [run_cons, turn_of_some env .granted hw, hnone]
  have hkind : ∀ p : Pass, (Work.pass token p).kind ≠ .aside := fun p => (nofun : Kind.pass ≠ .aside)
  exact run_alone env (fun _ _ _ => rfl) hkind (Pass.start token resume target sh) beats

section Covers

variable {env} {token : Token} {resume target : Epoch} {sh : Shared} {acts : List Action}

/-- What the task of the request did is all that was done. -/
theorem covers_of_own {done : List Epoch} (hown : System.Own 0 acts)
    (hcommits : (System.commitsBy env 0 (System.request ⟨sh, []⟩ (.pass token resume target)) acts).map Prod.fst = done)
    (hdone : done <+: upTo resume target)
    (hfetches : (System.callsBy env 0 (System.request ⟨sh, []⟩ (.pass token resume target)) acts).filterMap Call.fetched? <+:
      (upTo resume target).map env.layout.firstSlot)
    (hstaged : ∀ call ∈ System.callsBy env 0 (System.request ⟨sh, []⟩ (.pass token resume target)) acts,
      ∀ e ∈ call.staged? env, resume ≤ e ∧ e ≤ target) :
    sh.Covers env (System.run env (System.request ⟨sh, []⟩ (.pass token resume target)) acts).shared resume target done := by
  have hk := System.kind_requested ⟨sh, []⟩ (r := .pass token resume target) nofun
  have hid := System.length_request ⟨sh, []⟩ (.pass token resume target)
  have hledger := congrArg Ledger.log (System.ledger_sole env hid hk (hown.sole env))
  rw [Ledger.log_commitAll] at hledger
  refine ⟨hledger.trans ?_, hdone, _, System.calls_own env hid hk hown, hfetches, hstaged⟩
  rw [← hcommits]
  rfl

/-- The same for a pass that has got through `legs` and done nothing past `reach`. -/
theorem covers_of_confined {legs : List Leg} {reach : Epoch} {last? : Option Epoch} (hown : System.Own 0 acts)
    (hreach : upTo resume reach <+: upTo resume target) (hle : reach ≤ target)
    (hlegs : legs.map Leg.epoch <+: upTo resume target)
    (h : System.Confined env token resume reach last? legs (System.request ⟨sh, []⟩ (.pass token resume target)) 0 acts) :
    sh.Covers env (System.run env (System.request ⟨sh, []⟩ (.pass token resume target)) acts).shared resume target
      (legs.map Leg.epoch) := by
  refine covers_of_own hown ?_ hlegs (h.fetches.trans (hreach.map _)) fun call hc e he => ?_
  · rw [h.commits, List.map_map]
    rfl
  · obtain ⟨hge, hlt⟩ := h.staged call hc e he
    exact ⟨hge, UInt64.le_trans hlt hle⟩

/-- A pass that waits has got to the epoch that it is at. -/
theorem confined_of_advances {p : Pass} {first : Visit} {legs : List Leg} {as : List Assignment} {now : List Visit}
    (hp : (System.run env (System.request ⟨sh, []⟩ (.pass token resume target)) acts).work? 0 = some (.pass token p))
    (hadv : p.Advances env token resume target
      (System.visitsBy env 0 (System.request ⟨sh, []⟩ (.pass token resume target)) acts)
      (System.commitsBy env 0 (System.request ⟨sh, []⟩ (.pass token resume target)) acts) first legs as now) :
    System.Confined env token resume p.epoch (legs.map Leg.epoch).getLast? legs
      (System.request ⟨sh, []⟩ (.pass token resume target)) 0 acts := by
  have hcalls : System.callsBy env 0 (System.request ⟨sh, []⟩ (.pass token resume target)) acts =
      (System.visitsBy env 0 (System.request ⟨sh, []⟩ (.pass token resume target)) acts).filterMap Visit.call? ++
        (System.pending? env _ 0).toList :=
    System.calls_requested env ⟨sh, []⟩ (r := .pass token resume target) nofun acts
  rw [System.pending?_of_some env hp, hadv.visits, Leg.calls_path hadv.opening hadv.done, List.append_assoc] at hcalls
  have hk := System.kind_requested ⟨sh, []⟩ (r := .pass token resume target) nofun
  refine System.confined env (System.length_request ⟨sh, []⟩ _) hk
    (hcalls.trans (congrArg _ hadv.write.calls_visited)) hadv.commits hadv.done rfl
    (fun l hl => System.legs_within resume hadv.epochs hl) ?_ fun call hc e he => ?_
  · rw [← hadv.epochs, List.map_append]
    exact (List.prefix_append_right_inj _).2 (p.write.calls_fetched env p.epoch as)
  · rw [hadv.write.staged hc he]
    exact ⟨hadv.within.1, UInt64.le_refl _⟩

end Covers

/-- Whatever it meets with, a pass by itself commits the first epochs of its range and no
    other, and calls for no epoch beyond the range. -/
theorem pass_covers (token : Token) (resume target : Epoch) (sh : Shared) (beats : List Beat) :
    let p := drive env (Pass.resume env token) (Pass.start token resume target sh) beats
    ∃ done, sh.Covers env p.1 resume target done ∧
      Yields p (fun _ p => p.report.lastCommitted = done.getLast? ∧ p.report.processed = .ofNat done.length)
        (fun _ r => r.lastCommitted = done.getLast? ∧ r.processed = .ofNat done.length ∧
          (r.isCompleted ↔ done = upTo resume target)) := by
  dsimp only
  have hown : System.Own 0 (.turn 0 .granted :: beats.flatMap (Beat.acts 0)) := by
    intro a ha
    rcases List.mem_cons.1 ha with rfl | ha
    · exact Or.inl ⟨_, rfl⟩
    · exact System.own_beats 0 beats a ha
  have hrun := System.run_pass env token resume target sh beats
  have hpassing := System.passing_run env ⟨sh, []⟩ token resume target (.turn 0 .granted :: beats.flatMap (Beat.acts 0))
  generalize (Action.turn 0 .granted :: beats.flatMap (Beat.acts 0)) = acts at hown hrun hpassing
  generalize drive env (Pass.resume env token) (Pass.start token resume target sh) beats = t at hrun ⊢
  have hshared := congrArg System.shared hrun
  obtain ⟨sh', p | r⟩ := t
  · have ht : (System.run env _ acts).tasks[0]? = some (.active (.pass token p)) := congrArg (fun s => s.tasks[0]?) hrun
    cases hpassing with
    | asked ht' => cases ht'.symm.trans ht
    | ended r ht' => cases ht'.symm.trans ht
    | underway p' ht' hadv =>
      cases ht'.symm.trans ht
      obtain ⟨first, legs, as, now, hadv⟩ := hadv
      have hreach := upTo_initial hadv.within.1 hadv.within.2
      have hcovers := covers_of_confined hown hreach hadv.within.2
        (legs_initial hadv.within.1 hadv.within.2 hadv.epochs)
        (confined_of_advances (System.work?_eq_some.2 ht) hadv)
      rw [hshared] at hcovers
      refine ⟨_, hcovers, ?_⟩
      show p.report.lastCommitted = _ ∧ p.report.processed = _
      rw [hadv.report, List.length_map]
      exact ⟨rfl, rfl⟩
  · obtain ⟨r', he, hpassed⟩ := System.passed_run env (congrArg (fun s => s.outcome? 0) hrun)
    cases he
    cases hpassed with
    | nothing hlt hcalls hcommits =>
      replace hcalls : System.callsBy env 0 (System.request ⟨sh, []⟩ (.pass token resume target)) acts = [] := hcalls
      have hcovers := covers_of_own hown (congrArg (List.map Prod.fst) hcommits) List.nil_prefix
        (by rw [hcalls]; exact List.nil_prefix) (by rw [hcalls]; exact nofun)
      rw [hshared] at hcovers
      exact ⟨[], hcovers, rfl, rfl, by simp [Report.isCompleted, Report.empty, upTo_empty hlt]⟩
    | whole legs hle hepochs hconfined =>
      have hcovers := covers_of_confined hown (List.prefix_refl _) (UInt64.le_refl _) (hepochs ▸ List.prefix_refl _) hconfined
      rw [hshared, hepochs] at hcovers
      exact ⟨_, hcovers, (getLast?_upTo hle).symm, (ofNat_length_upTo hle).symm, by simp [Report.isCompleted]⟩
    | short first legs epoch now outcome hle hle' hepochs hvisits hhalts houtcome hconfined =>
      have hreach := upTo_initial hle hle'
      have hcovers := covers_of_confined hown hreach hle' (legs_initial hle hle' hepochs) hconfined
      rw [hshared] at hcovers
      obtain ⟨hlast, hlength⟩ := System.before?_of_upTo hle hepochs
      refine ⟨_, hcovers, hlast.symm, by rw [hlength, ofNat_sub_toNat hle], ?_⟩
      have hnot : legs.map Leg.epoch ≠ upTo resume target := by
        intro hwhole
        have hcount := length_upTo (UInt64.le_trans hle hle')
        rw [← hwhole, hlength] at hcount
        have hepoch := UInt64.le_iff_toNat_le.1 hle'
        omega
      rcases houtcome with rfl | ⟨error, rfl, -⟩ <;> simp [Report.isCompleted, hnot]

end CommitteeSync
